import FluxMeter.Collections.Cells
import FluxMeter.Transition.Replay
import FluxMeter.Usage.Charges

/-! The writes of the sink scripts as data. Increments and package draws can be swapped, so that only
the set of writes of a run matters, apart from the keys that the last run overwrites. -/
namespace FluxMeter.Usage
open FluxMeter.Budget FluxMeter.Keys Collections Transition

inductive Write
  | incrBy (key : String) (n : ℤ)
  | incrByFloat (key : String) (q : ℚ)
  | setInt (key : String) (n : ℤ)
  | hincrBy (key field : String) (n : ℤ)
  | hincrByFloat (key field : String) (q : ℚ)
  | sadd (key member : String)
  | draw (key : String) (a : ProjectionArgs)

namespace Write

def run (u : UsageStore) : Write → UsageStore
  | .incrBy key n => u.incrBy key n
  | .incrByFloat key q => u.incrByFloat key q
  | .setInt key n => u.setInt key n
  | .hincrBy key field n => u.hincrBy key field n
  | .hincrByFloat key field q => u.hincrByFloat key field q
  | .sadd key member => u.sadd key member
  | .draw key a => drawPackage u a key

/-- The command of an amount that the script tests first. -/
def positive (n : ℤ) (w : Write) : List Write := if 0 < n then [w] else []

theorem foldl_positive (u : UsageStore) (key : String) (n : ℤ) :
    (positive n (.incrBy key n)).foldl run u = u.incrByPositive key n := by
  unfold positive UsageStore.incrByPositive
  split_ifs <;> rfl

theorem foldl_hpositive (u : UsageStore) (key field : String) (n : ℤ) :
    (positive n (.hincrBy key field n)).foldl run u =
      if 0 < n then u.hincrBy key field n else u := by
  unfold positive
  split_ifs <;> rfl

/-- The cells of a package and of its debt, by the last letters of their keys. -/
def PackageCell (key : String) : Prop :=
  endOf key = endOf ":tokens_remaining" ∨ endOf key = endOf ":debt"

/-- A write that stays off the package cells, overwrites hidden keys only, and draws no negative
amount. -/
def Tame (hidden : String → Prop) : Write → Prop
  | .incrBy key _ => ¬ PackageCell key
  | .setInt key _ => hidden key
  | .draw key a => endOf key = endOf ":tokens_remaining" ∧ 0 ≤ a.totalTokens
  | _ => True

end Write

/-- Two usage stores that agree on all keys that are not hidden; a set is known by its members. -/
structure Alike (hidden : String → Prop) (u u' : UsageStore) : Prop where
  ints : ∀ key, ¬ hidden key → u.ints key = u'.ints key
  floats : u.floats = u'.floats
  hashInts : u.hashInts = u'.hashInts
  hashFloats : u.hashFloats = u'.hashFloats
  sets : ∀ key member, member ∈ u.sets key ↔ member ∈ u'.sets key

theorem alike_equivalence (hidden : String → Prop) : Equivalence (Alike hidden) where
  refl _ := ⟨fun _ _ => rfl, rfl, rfl, rfl, fun _ _ => Iff.rfl⟩
  symm h := ⟨fun k hk => (h.ints k hk).symm, h.floats.symm, h.hashInts.symm, h.hashFloats.symm,
    fun k m => (h.sets k m).symm⟩
  trans h h' := ⟨fun k hk => (h.ints k hk).trans (h'.ints k hk), h.floats.trans h'.floats,
    h.hashInts.trans h'.hashInts, h.hashFloats.trans h'.hashFloats,
    fun k m => (h.sets k m).trans (h'.sets k m)⟩

/-! ### The fields of the store -/

section Fields

/-- What an increment does to a number. -/
def bump (n : ℤ) (v : Option ℤ) : Option ℤ := some (v.getD 0 + n)

theorem bump_comm (m n : ℤ) (v : Option ℤ) : bump n (bump m v) = bump m (bump n v) := by
  unfold bump
  rw [Option.getD_some, Option.getD_some, add_right_comm]

theorem incrByFloat_comm (p q : ℚ) (v : Option ℚ) :
    incrByFloat (incrByFloat v p) q = incrByFloat (incrByFloat v q) p := by
  unfold Budget.incrByFloat
  rw [number_some, number_some, add_right_comm]

theorem adjust_incrByFloat_comm (floats : String → Option ℚ) (j k : String) (p q : ℚ) :
    adjust (adjust floats j fun v => incrByFloat v p) k (fun v => incrByFloat v q) =
      adjust (adjust floats k fun v => incrByFloat v q) j fun v => incrByFloat v p := by
  apply adjust_comm
  exact incrByFloat_comm p q

/-- A package and its debt as one cell. -/
def placed (ints : String → Option ℤ) (key : String) (cell : ℤ × Option ℤ) : String → Option ℤ :=
  Function.update (Function.update ints (key ++ ":debt") cell.2) key (some cell.1)

/-- A package and its debt after a draw of `n` tokens, where there is a package. -/
def drawn (ints : String → Option ℤ) (key : String) (n : ℤ) : String → Option ℤ :=
  match ints key with
  | none => ints
  | some left => placed ints key (withdraw (left, ints (key ++ ":debt")) n)

theorem debt_ne (key : String) : key ++ ":debt" ≠ key := by
  intro h
  have hlength := congrArg (fun k => k.toList.length) h
  rw [String.toList_append, List.length_append] at hlength
  have hdebt : ":debt".toList.length = 5 := rfl
  omega

theorem placed_key (ints : String → Option ℤ) (key : String) (cell : ℤ × Option ℤ) :
    placed ints key cell key = some cell.1 := Function.update_self _ _ _

theorem placed_debt (ints : String → Option ℤ) (key : String) (cell : ℤ × Option ℤ) :
    placed ints key cell (key ++ ":debt") = cell.2 := by
  unfold placed
  rw [Function.update_of_ne (debt_ne key), Function.update_self]

private theorem placed_placed (ints : String → Option ℤ) (key : String) (cell cell' : ℤ × Option ℤ) :
    placed (placed ints key cell) key cell' = placed ints key cell' := by
  unfold placed
  rw [Function.update_comm (debt_ne key).symm, Function.update_idem, Function.update_idem]

private theorem placed_of_ne (ints : String → Option ℤ) {k key : String} (cell : ℤ × Option ℤ)
    (hk : k ∉ ({key, key ++ ":debt"} : Set String)) : placed ints key cell k = ints k := by
  have hne := not_or.mp hk
  unfold placed
  rw [Function.update_of_ne hne.1, Function.update_of_ne hne.2]

theorem drawn_drawn {ints : String → Option ℤ} {key : String} {left : ℤ} (h : ints key = some left)
    (m n : ℤ) : drawn (drawn ints key m) key n =
      placed ints key (withdraw (withdraw (left, ints (key ++ ":debt")) m) n) := by
  have hdrawn : drawn ints key m = placed ints key (withdraw (left, ints (key ++ ":debt")) m) := by
    unfold drawn
    rw [h]
  rw [hdrawn]
  unfold drawn
  rw [placed_key, placed_debt]
  exact placed_placed _ _ _ _

theorem local_drawn (key : String) (n : ℤ) :
    Local {key, key ++ ":debt"} fun ints => drawn ints key n where
  frame ints k hk := by
    unfold drawn
    cases ints key with
    | none => rfl
    | some left => exact placed_of_ne ints _ hk
  congr ints ints' h := by
    have hkey := h key (Set.mem_insert _ _)
    have hdebt := h (key ++ ":debt") (Set.mem_insert_of_mem _ rfl)
    intro k hk
    unfold drawn
    rw [← hkey, ← hdebt]
    cases ints key with
    | none => exact h k hk
    | some left =>
      obtain rfl | rfl := hk
      · exact (placed_key _ _ _).trans (placed_key _ _ _).symm
      · exact (placed_debt _ _ _).trans (placed_debt _ _ _).symm

theorem drawn_comm (ints : String → Option ℤ) {key key' : String} {m n : ℤ}
    (hkey : endOf key = endOf ":tokens_remaining") (hkey' : endOf key' = endOf ":tokens_remaining")
    (hm : 0 ≤ m) (hn : 0 ≤ n) :
    drawn (drawn ints key m) key' n = drawn (drawn ints key' n) key m := by
  by_cases hsame : key = key'
  · subst hsame
    cases hleft : ints key with
    | none =>
      have hnone : ∀ n, drawn ints key n = ints := by
        intro n
        unfold drawn
        rw [hleft]
      rw [hnone m, hnone n, hnone m]
    | some left => rw [drawn_drawn hleft, drawn_drawn hleft, withdraw_comm hm hn]
  · have hend : ∀ {j k : String}, endOf j = endOf ":tokens_remaining" → j ≠ k ++ ":debt" := by
      rintro j k hj rfl
      rw [endOf_append k (by decide)] at hj
      exact absurd hj (by decide)
    refine (local_drawn key m).comm (local_drawn key' n) ?_ ints
    rintro k (rfl | rfl) (hk | hk)
    · exact hsame hk
    · exact hend hkey hk
    · exact hend hkey' hk.symm
    · exact hsame ((String.append_left_inj ":debt").mp hk)

namespace Write
variable (w : Write)

def onInts (ints : String → Option ℤ) : Write → String → Option ℤ
  | .incrBy key n => adjust ints key (bump n)
  | .setInt key n => Function.update ints key (some n)
  | .draw key a => drawn ints key a.totalTokens
  | _ => ints

def onFloats (floats : String → Option ℚ) : Write → String → Option ℚ
  | .incrByFloat key q => adjust floats key fun v => Budget.incrByFloat v q
  | _ => floats

def onHashInts (hashes : String → String → Option ℤ) : Write → String → String → Option ℤ
  | .hincrBy key field n => adjust hashes key fun hash => adjust hash field (bump n)
  | _ => hashes

def onHashFloats (hashes : String → String → Option ℚ) : Write → String → String → Option ℚ
  | .hincrByFloat key field q =>
    adjust hashes key fun hash => adjust hash field fun v => Budget.incrByFloat v q
  | _ => hashes

def onSets (sets : String → List String) : Write → String → List String
  | .sadd key member =>
    adjust sets key fun members => if member ∈ members then members else member :: members
  | _ => sets

theorem drawPackage_eq (u : UsageStore) (a : ProjectionArgs) (key : String) :
    drawPackage u a key = { u with ints := drawn u.ints key a.totalTokens } := by
  unfold drawPackage drawn
  cases hleft : u.ints key with
  | none => rfl
  | some left =>
    dsimp only
    unfold placed withdraw
    dsimp only
    split_ifs with hshort
    · rfl
    · rw [Function.update_eq_self]
      rfl

theorem run_eq (u : UsageStore) : w.run u =
    { ints := w.onInts u.ints
      floats := w.onFloats u.floats
      hashInts := w.onHashInts u.hashInts
      hashFloats := w.onHashFloats u.hashFloats
      sets := w.onSets u.sets } := by
  cases w with
  | draw key a => exact drawPackage_eq u a key
  | _ => rfl

theorem onFloats_comm (w w' : Write) (floats : String → Option ℚ) :
    w'.onFloats (w.onFloats floats) = w.onFloats (w'.onFloats floats) := by
  cases w with
  | incrByFloat key q =>
    cases w' with
    | incrByFloat key' q' => exact adjust_incrByFloat_comm floats key key' q q'
    | _ => rfl
  | _ => rfl

theorem onHashInts_comm (w w' : Write) (hashes : String → String → Option ℤ) :
    w'.onHashInts (w.onHashInts hashes) = w.onHashInts (w'.onHashInts hashes) := by
  cases w with
  | hincrBy key field n =>
    cases w' with
    | hincrBy key' field' n' =>
      simp only [onHashInts]
      apply adjust_comm
      intro hash
      exact adjust_comm (bump_comm n n') hash field field'
    | _ => rfl
  | _ => rfl

theorem onHashFloats_comm (w w' : Write) (hashes : String → String → Option ℚ) :
    w'.onHashFloats (w.onHashFloats hashes) = w.onHashFloats (w'.onHashFloats hashes) := by
  cases w with
  | hincrByFloat key field q =>
    cases w' with
    | hincrByFloat key' field' q' =>
      simp only [onHashFloats]
      apply adjust_comm
      intro hash
      exact adjust_incrByFloat_comm hash field field' q q'
    | _ => rfl
  | _ => rfl

theorem mem_onSets (w : Write) (sets : String → List String) (k member : String) :
    member ∈ w.onSets sets k ↔ member ∈ sets k ∨ ∃ key m, w = .sadd key m ∧ k = key ∧ member = m := by
  cases w with
  | sadd key m =>
    unfold onSets
    dsimp only
    by_cases hk : k = key
    · subst hk
      rw [adjust_self]
      by_cases hm : m ∈ sets k
      · rw [if_pos hm]
        aesop
      · rw [if_neg hm]
        aesop
    · rw [adjust_of_ne _ _ hk]
      aesop
  | _ => simp [onSets]

/-- No write but an overwriting one depends on a hidden number. -/
theorem onInts_alike {hidden : String → Prop} (hseen : ∀ key, PackageCell key → ¬ hidden key)
    {w : Write} (hw : w.Tame hidden) {ints ints' : String → Option ℤ}
    (h : ∀ key, ¬ hidden key → ints key = ints' key) :
    ∀ key, ¬ hidden key → w.onInts ints key = w.onInts ints' key := by
  cases w with
  | incrBy key n =>
    intro k hk
    simp only [onInts]
    by_cases hkey : k = key
    · subst hkey
      rw [adjust_self, adjust_self, h k hk]
    · rw [adjust_of_ne _ _ hkey, adjust_of_ne _ _ hkey, h k hk]
  | setInt key n =>
    intro k hk
    have hne : k ≠ key := fun hkey => hk (hkey ▸ hw)
    simp only [onInts]
    rw [Function.update_of_ne hne, Function.update_of_ne hne, h k hk]
  | draw key a =>
    have hdebt : PackageCell (key ++ ":debt") := Or.inr (endOf_append key (by decide))
    refine (local_drawn key a.totalTokens).alike ?_ h
    rintro k (rfl | rfl)
    · exact hseen k (Or.inl hw.1)
    · exact hseen _ hdebt
  | _ => exact h

private theorem onInts_comm {hidden : String → Prop} (hseen : ∀ key, PackageCell key → ¬ hidden key)
    {w w' : Write} (hw : w.Tame hidden) (hw' : w'.Tame hidden) (ints : String → Option ℤ) :
    ∀ key, ¬ hidden key → w'.onInts (w.onInts ints) key = w.onInts (w'.onInts ints) key := by
  -- an overwritten key is hidden, so that the overwriting write might as well not be there
  have hset : ∀ (key : String) (n : ℤ), hidden key → ∀ f : String → Option ℤ, ∀ k, ¬ hidden k →
      Function.update f key (some n) k = f k := by
    intro key n hkey f k hk
    have hne : k ≠ key := fun h => hk (h ▸ hkey)
    exact Function.update_of_ne hne _ _
  have hcounter : ∀ (key key' : String) (m : ℤ), ¬ PackageCell key →
      endOf key' = endOf ":tokens_remaining" → ∀ n f,
      drawn (adjust f key (bump m)) key' n = adjust (drawn f key' n) key (bump m) := by
    intro key key' m hkey hkey' n f
    refine (local_adjust key (bump m)).comm (local_drawn key' n) ?_ f
    rintro k rfl (rfl | rfl)
    · exact hkey (Or.inl hkey')
    · exact hkey (Or.inr (endOf_append key' (by decide)))
  intro k hk
  cases w with
  | setInt key n =>
    exact (onInts_alike hseen hw' (hset key n hw ints) k hk).trans
      (hset key n hw (w'.onInts ints) k hk).symm
  | incrBy key n =>
    cases w' with
    | setInt key' n' =>
      exact (hset key' n' hw' _ k hk).trans
        (onInts_alike hseen hw (hset key' n' hw' ints) k hk).symm
    | incrBy key' n' => exact congrFun (adjust_comm (bump_comm n n') ints key key') k
    | draw key' a' => exact congrFun (hcounter key key' n hw hw'.1 a'.totalTokens ints) k
    | _ => rfl
  | draw key a =>
    cases w' with
    | setInt key' n' =>
      exact (hset key' n' hw' _ k hk).trans
        (onInts_alike hseen hw (hset key' n' hw' ints) k hk).symm
    | incrBy key' n' => exact congrFun (hcounter key' key n' hw' hw.1 a.totalTokens ints).symm k
    | draw key' a' => exact congrFun (drawn_comm ints hw.1 hw'.1 hw.2 hw'.2) k
    | _ => rfl
  | _ => rfl

theorem run_alike {hidden : String → Prop} (hseen : ∀ key, PackageCell key → ¬ hidden key)
    {w : Write} (hw : w.Tame hidden) {u u' : UsageStore} (h : Alike hidden u u') :
    Alike hidden (w.run u) (w.run u') := by
  rw [run_eq, run_eq]
  constructor
  case ints => exact onInts_alike hseen hw h.ints
  case floats => exact congrArg w.onFloats h.floats
  case hashInts => exact congrArg w.onHashInts h.hashInts
  case hashFloats => exact congrArg w.onHashFloats h.hashFloats
  case sets =>
    intro k m
    rw [mem_onSets, mem_onSets, h.sets]

theorem run_comm {hidden : String → Prop} (hseen : ∀ key, PackageCell key → ¬ hidden key)
    {w w' : Write} (hw : w.Tame hidden) (hw' : w'.Tame hidden) (u : UsageStore) :
    Alike hidden (w'.run (w.run u)) (w.run (w'.run u)) := by
  simp only [run_eq]
  constructor
  case ints => exact onInts_comm hseen hw hw' u.ints
  case floats => exact onFloats_comm w w' u.floats
  case hashInts => exact onHashInts_comm w w' u.hashInts
  case hashFloats => exact onHashFloats_comm w w' u.hashFloats
  case sets =>
    intro k m
    dsimp only
    rw [mem_onSets, mem_onSets, mem_onSets, mem_onSets]
    exact or_right_comm

theorem swappable {hidden : String → Prop} (hseen : ∀ key, PackageCell key → ¬ hidden key)
    {ws : List Write} (hws : ∀ w ∈ ws, w.Tame hidden) :
    Swappable (fun _ => True) (Alike hidden) run ws where
  keeps _ _ _ _ := trivial
  congr w hw _ _ _ _ h := run_alike hseen (hws w hw) h
  swap w hw w' hw' u _ := run_comm hseen (hws w hw) (hws w' hw') u

end Write

end Fields

/-! ### The two scripts -/

open Write

def rollupWrites (a : SinkArgs) (key : String) : List Write :=
  [.hincrBy key "input_tokens" a.inputTokens, .hincrBy key "output_tokens" a.outputTokens,
    .hincrBy key "total_tokens" a.totalTokens, .hincrBy key "event_count" a.eventCount,
    .hincrByFloat key "cost_usd" a.costUsd] ++
  positive a.cacheReadTokens (.hincrBy key "cache_read_tokens" a.cacheReadTokens) ++
  positive a.reasoningTokens (.hincrBy key "reasoning_tokens" a.reasoningTokens)

/-- The writes of a window after those on its customer and model, but for the index. -/
def restWrites (k : SinkKeys) (a : SinkArgs) : List Write :=
  positive a.cacheReadTokens (.incrBy (k.customer ++ ":cache_read_tokens") a.cacheReadTokens) ++
  positive a.reasoningTokens (.incrBy (k.customer ++ ":reasoning_tokens") a.reasoningTokens) ++
  [.incrBy (k.global "total_tokens") a.totalTokens,
    .incrBy (k.global "input_tokens") a.inputTokens,
    .incrBy (k.global "output_tokens") a.outputTokens,
    .incrBy (k.global "total_events") a.eventCount,
    .incrByFloat (k.global "total_cost_usd") a.costUsd,
    .setInt (k.global "last_window_end") a.windowEnd,
    .incrBy k.periodVolume a.totalTokens] ++
  rollupWrites a k.periodRollup ++ rollupWrites a k.dayRollup

def windowWrites (k : SinkKeys) (a : SinkArgs) : List Write :=
  [.incrBy (k.customer ++ ":input_tokens") a.inputTokens,
    .incrBy (k.customer ++ ":output_tokens") a.outputTokens,
    .incrBy (k.customer ++ ":total_tokens") a.totalTokens,
    .incrBy (k.customer ++ ":event_count") a.eventCount,
    .incrBy (k.model ++ ":input_tokens") a.inputTokens,
    .incrBy (k.model ++ ":output_tokens") a.outputTokens,
    .incrBy (k.model ++ ":total_tokens") a.totalTokens,
    .incrByFloat (k.model ++ ":cost_usd") a.costUsd,
    .incrByFloat (k.customer ++ ":cost_usd") a.costUsd] ++
  restWrites k a ++ [.sadd k.periodCustomers a.customerId]

private theorem foldl_rollupWrites (u : UsageStore) (a : SinkArgs) (key : String) :
    (rollupWrites a key).foldl run u = u.rollup a key := by
  unfold rollupWrites
  rw [List.foldl_append, List.foldl_append, foldl_hpositive, foldl_hpositive]
  rfl

theorem foldl_windowWrites (u : UsageStore) (k : SinkKeys) (a : SinkArgs) :
    (windowWrites k a).foldl run u = u.applyWindow k a := by
  unfold windowWrites restWrites
  simp only [List.foldl_append, foldl_positive, foldl_rollupWrites]
  rfl

def sessionWrites (a : ProjectionArgs) (key : String) : List Write :=
  [.incrBy (key ++ ":input_tokens") a.inputTokens, .incrBy (key ++ ":output_tokens") a.outputTokens,
    .incrBy (key ++ ":total_tokens") a.totalTokens, .incrBy (key ++ ":event_count") 1,
    .incrByFloat (key ++ ":cost_usd") a.costUsd] ++
  positive a.cacheReadTokens (.incrBy (key ++ ":cache_read_tokens") a.cacheReadTokens) ++
  positive a.reasoningTokens (.incrBy (key ++ ":reasoning_tokens") a.reasoningTokens)

def modelRollupWrites (a : ProjectionArgs) (key : String) : List Write :=
  [.hincrByFloat key "cost_usd" a.costUsd, .hincrBy key "event_count" 1,
    .hincrBy key "total_tokens" a.totalTokens, .hincrBy key "input_tokens" a.inputTokens,
    .hincrBy key "output_tokens" a.outputTokens]

def dimTotalsWrites (a : ProjectionArgs) (key : String) : List Write :=
  [.incrByFloat (key ++ ":cost_usd") a.costUsd, .incrBy (key ++ ":event_count") 1]

def projectionWrites (k : ProjectionKeys) (a : ProjectionArgs) : List Write :=
  k.session.toList.flatMap (sessionWrites a) ++ modelRollupWrites a k.modelRollup ++
  [.draw k.package a] ++
  (k.apiKeyDay.toList ++ k.apiKeyMonth.toList).map (fun key => .incrByFloat key a.costUsd) ++
  k.dims.flatMap (dimTotalsWrites a)

theorem foldl_sessionWrites (u : UsageStore) (a : ProjectionArgs) (key : Option String) :
    (key.toList.flatMap (sessionWrites a)).foldl run u = sessionUsage u a key := by
  cases key with
  | none => rfl
  | some key =>
    show (sessionWrites a key ++ []).foldl run u = sessionCounters u a key
    unfold sessionWrites
    simp only [List.append_nil, List.foldl_append, foldl_positive]
    rfl

private theorem foldl_spendApiKey (u : UsageStore) (a : ProjectionArgs) (day month : Option String) :
    ((day.toList ++ month.toList).map fun key => Write.incrByFloat key a.costUsd).foldl run u =
      spendApiKey (spendApiKey u a day) a month := by
  cases day <;> cases month <;> rfl

private theorem foldl_dims (u : UsageStore) (a : ProjectionArgs) (dims : List String) :
    (dims.flatMap (dimTotalsWrites a)).foldl run u = dims.foldl (fun u key => dimTotals u a key) u := by
  rw [List.foldl_flatMap]
  rfl

theorem foldl_projectionWrites (u : UsageStore) (k : ProjectionKeys) (a : ProjectionArgs) :
    (projectionWrites k a).foldl run u = projectUsage u k a := by
  unfold projectionWrites
  rw [List.foldl_append, List.foldl_append, List.foldl_append, List.foldl_append,
    foldl_sessionWrites, foldl_spendApiKey, foldl_dims]
  rfl

end FluxMeter.Usage
