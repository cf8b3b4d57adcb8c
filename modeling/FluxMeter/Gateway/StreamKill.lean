import FluxMeter.Gateway.StreamGuard

/-! When the guard kills a stream: at the first chunk after which the usage so far costs more than the
hold. Until then it forwards every payload, and the usage is the fold of the chunks. -/
namespace FluxMeter.Gateway
open Collections FluxMeter.Custody FluxMeter.Wire

/-! ### Payloads -/

/-- What a client reads off a `data:` line. -/
inductive Payload
  | done
  | chunk (value : Json)
  | text (payload : List Char)

def JsonModule.payload (J : JsonModule) (line : List Char) : Payload :=
  let payload := strip (line.drop 5)
  if payload = doneMarker then .done
  else
    match J.loads payload with
    | some value => .chunk value
    | none => .text payload

def JsonModule.payloads (J : JsonModule) (text : List Char) : List Payload :=
  (dataLines text).map J.payload

def Payload.chunk? : Payload → Option Json
  | .chunk value => some value
  | _ => none

def chunksOf (payloads : List Payload) : List Json := payloads.filterMap Payload.chunk?

theorem chunksOf_append (payloads payloads' : List Payload) :
    chunksOf (payloads ++ payloads') = chunksOf payloads ++ chunksOf payloads' :=
  List.filterMap_append

/-- A `data:` line without its end. -/
def IsDataLine (line : List Char) : Prop := dataPrefix.isPrefixOf line = true ∧ '\n' ∉ line

theorem isDataLine_of_mem {text line : List Char} (h : line ∈ dataLines text) : IsDataLine line := by
  obtain ⟨hmem, hdata⟩ := List.mem_filter.mp h
  exact ⟨hdata, (part_of_splitOn hmem).1⟩

theorem dataLines_blank {text : List Char} (h : strip text = []) : dataLines text = [] := by
  have hspaces : ∀ c ∈ text, isSpace c = true := by
    have hdrop : text.dropWhile isSpace = [] := by
      cases hdrop : text.dropWhile isSpace with
      | nil => rfl
      | cons c rest =>
        have hall := List.rdropWhile_eq_nil_iff.mp h c (by rw [hdrop]; exact List.mem_cons_self)
        have hhead := List.head?_dropWhile_not isSpace text
        rw [hdrop] at hhead
        simp [hall] at hhead
    exact List.dropWhile_eq_nil_iff.mp hdrop
  refine List.filter_eq_nil_iff.mpr fun line hline hdata => ?_
  obtain ⟨rest, rfl⟩ := List.isPrefixOf_iff_prefix.mp hdata
  have hd : 'd' ∈ text := (part_of_splitOn hline).2 'd' (by simp [dataPrefix])
  have hspace := hspaces 'd' hd
  revert hspace
  decide

theorem JsonModule.payloads_append (J : JsonModule) (text text' : List Char) :
    J.payloads (text ++ '\n' :: text') = J.payloads text ++ J.payloads text' := by
  unfold payloads dataLines
  rw [List.splitOn_append_cons_self, List.filter_append, List.map_append]

theorem JsonModule.payloads_ended (J : JsonModule) (text text' : List Char) :
    J.payloads (text ++ ['\n', '\n'] ++ text') = J.payloads text ++ J.payloads text' := by
  rw [List.append_assoc, List.cons_append, List.cons_append, List.nil_append, J.payloads_append]
  exact congrArg _ (J.payloads_append [] text')

theorem dataLines_intercalate {lines : List (List Char)} (hlines : ∀ line ∈ lines, IsDataLine line)
    (h : lines ≠ []) : dataLines (['\n'].intercalate lines) = lines := by
  unfold dataLines
  rw [List.splitOn_intercalate _ (fun line hline => (hlines line hline).2) h]
  exact List.filter_eq_self.mpr fun line hline => (hlines line hline).1

/-- The blocks that empty lines separate, with the last one, which may be open. -/
def sseBlocks (text : List Char) : List (List Char) :=
  (frames '\n' text).1 ++ [(frames '\n' text).2]

theorem JsonModule.payloads_blocks (J : JsonModule) (text : List Char) :
    J.payloads text = (sseBlocks text).flatMap J.payloads := by
  have hended : ∀ blocks : List (List Char), ∀ last : List Char,
      J.payloads (blocks.flatMap (· ++ ['\n', '\n']) ++ last) =
        blocks.flatMap J.payloads ++ J.payloads last := by
    intro blocks last
    induction blocks with
    | nil => rfl
    | cons block blocks ih =>
      rw [List.flatMap_cons, List.flatMap_cons, List.append_assoc, J.payloads_ended, ih,
        List.append_assoc]
  have hjoin := hended (frames '\n' text).1 (frames '\n' text).2
  rw [frames_join] at hjoin
  rw [hjoin, sseBlocks, List.flatMap_append, List.flatMap_singleton]

theorem isSpace_printable {c : Char} (hlow : 32 ≤ c.toNat) (hhigh : c.toNat ≤ 126)
    (h : isSpace c = true) : c = ' ' := by
  unfold isSpace at h
  simp only [Bool.or_eq_true, Bool.and_eq_true, decide_eq_true_eq] at h
  have hvalue : c.toNat = ' '.toNat := by
    show c.toNat = 32
    omega
  exact Char.toNat_inj.mp hvalue

theorem JsonModule.strip_dumps (J : JsonModule) {text : List Char} {value : Json}
    (h : J.loads text = some value) : strip (' ' :: J.dumps value) = J.dumps value := by
  have hprintable := J.printable text value h
  obtain ⟨hhead, hlast⟩ := J.trimmed text value h
  have hdrop : (' ' :: J.dumps value).dropWhile isSpace = J.dumps value := by
    rw [List.dropWhile_cons_of_pos (by decide)]
    cases hdumps : J.dumps value with
    | nil => rfl
    | cons c rest =>
      rw [hdumps] at hprintable hhead
      obtain ⟨hlow, hhigh⟩ := hprintable c List.mem_cons_self
      refine List.dropWhile_cons_of_neg fun hspace => hhead ?_
      rw [isSpace_printable hlow hhigh hspace]
      rfl
  unfold strip
  rw [hdrop, List.rdropWhile_eq_self_iff]
  intro hne hspace
  obtain ⟨hlow, hhigh⟩ := hprintable _ (List.getLast_mem hne)
  rw [List.getLast?_eq_some_getLast hne, isSpace_printable hlow hhigh hspace] at hlast
  exact hlast rfl

/-- The line that the guard writes for a chunk gives the chunk back. -/
theorem JsonModule.payload_dumps (J : JsonModule) {text : List Char} {value : Json}
    (h : J.loads text = some value) :
    IsDataLine (dataPrefix ++ ' ' :: J.dumps value) ∧
      J.payload (dataPrefix ++ ' ' :: J.dumps value) = .chunk value := by
  have hloads := J.loads_dumps text value h
  constructor
  · refine ⟨List.isPrefixOf_iff_prefix.mpr (List.prefix_append _ _), ?_⟩
    rw [List.mem_append, List.mem_cons]
    rintro (hpredicted | hspace | hdumps)
    · revert hpredicted
      decide
    · revert hspace
      decide
    · have hlow := (J.printable text value h '\n' hdumps).1
      revert hlow
      decide
  · have hdrop : (dataPrefix ++ ' ' :: J.dumps value).drop 5 = ' ' :: J.dumps value := by
      rfl
    have hne : J.dumps value ≠ doneMarker := by
      intro heq
      have hdone : J.loads doneMarker = none := J.loads_done
      rw [heq, hdone] at hloads
      cases hloads
    unfold payload
    rw [hdrop, J.strip_dumps h]
    dsimp only
    rw [if_neg hne, hloads]

/-! ### The shape of a chunk -/

def TextOrNull : Option Json → Prop
  | none | some .null | some (.str _) => True
  | _ => False

def CountOrNull : Option Json → Prop
  | none | some .null | some (.num _) => True
  | _ => False

def DeltaShape : Option Json → Prop
  | none | some .null => True
  | some (.obj delta) => TextOrNull (Dict.get delta "content")
  | _ => False

def ChoiceShape : Json → Prop
  | .obj choice => DeltaShape (Dict.get choice "delta")
  | _ => False

def ChoicesShape : Option Json → Prop
  | none | some .null => True
  | some (.arr choices) => ∀ choice ∈ choices, ChoiceShape choice
  | _ => False

def UsageShape : Option Json → Prop
  | none | some .null => True
  | some (.obj usage) =>
    CountOrNull (Dict.get usage "completion_tokens") ∧ CountOrNull (Dict.get usage "prompt_tokens")
  | _ => False

/-- The object that a chat completion streams. -/
def ChunkShape : Json → Prop
  | .obj chunk => ChoicesShape (Dict.get chunk "choices") ∧ UsageShape (Dict.get chunk "usage")
  | _ => False

/-- A payload of the stream: `[DONE]` or a chunk. -/
def Payload.Shaped : Payload → Prop
  | .done => True
  | .chunk value => ChunkShape value
  | .text _ => False

theorem countOr_isSome (py : Python) {value : Option Json} (h : CountOrNull value) (old : ℤ) :
    ∃ n, countOr py value old = some n := by
  match value, h with
  | none, _ => exact ⟨old, rfl⟩
  | some .null, _ => exact ⟨old, rfl⟩
  | some (.num n), _ => exact ⟨n, py.int_num n⟩

theorem noteUsage_goesOn (py : Python) (u : StreamUsage) {chunk : Dict}
    (h : UsageShape (chunk.get "usage")) : (noteUsage py u chunk).2 = true := by
  unfold noteUsage
  match hget : chunk.get "usage", h with
  | none, _ => rfl
  | some .null, _ => rfl
  | some (.obj usage), hcounts =>
    rw [Option.filter]
    split_ifs
    · obtain ⟨output, houtput⟩ := countOr_isSome py hcounts.1 u.outputTokens
      obtain ⟨input, hinput⟩ := countOr_isSome py hcounts.2 u.inputTokens
      dsimp only
      rw [houtput]
      dsimp only
      rw [hinput]
    · rfl

theorem dictOrEmpty_obj (fields : Dict) : dictOrEmpty (some (.obj fields)) = some fields := by
  cases fields <;> rfl

private theorem dictOrEmpty_delta {delta : Option Json} (h : DeltaShape delta) :
    ∃ fields, dictOrEmpty delta = some fields ∧ TextOrNull (Dict.get fields "content") := by
  match delta, h with
  | none, _ => exact ⟨[], rfl, trivial⟩
  | some .null, _ => exact ⟨[], rfl, trivial⟩
  | some (.obj fields), hcontent => exact ⟨fields, dictOrEmpty_obj fields, hcontent⟩

private theorem filter_text {content : Option Json} (h : TextOrNull content) :
    content.filter truthy = none ∨ ∃ s, content.filter truthy = some (.str s) := by
  match content, h with
  | none, _ => exact Or.inl rfl
  | some .null, _ => exact Or.inl rfl
  | some (.str s), _ =>
    rw [Option.filter]
    split_ifs
    · exact Or.inr ⟨s, rfl⟩
    · exact Or.inl rfl

private theorem deltaContent_text {chunk : Dict} (h : ChoicesShape (chunk.get "choices")) :
    deltaContent chunk = some none ∨ ∃ s, deltaContent chunk = some (some (.str s)) := by
  unfold deltaContent
  match chunk.get "choices", h with
  | none, _ => exact Or.inl rfl
  | some .null, _ => exact Or.inl rfl
  | some (.arr []), _ => exact Or.inl rfl
  | some (.arr (choice :: choices)), hshape =>
    match choice, hshape choice List.mem_cons_self with
    | .obj fields, hdelta =>
      obtain ⟨delta, hread, hcontent⟩ := dictOrEmpty_delta hdelta
      have hcontents : deltaContent [("choices", .arr (.obj fields :: choices))] =
          some ((Dict.get delta "content").filter truthy) := by
        show (dictOrEmpty (some (.obj fields)) >>= fun first =>
          dictOrEmpty (Dict.get first "delta") >>= fun delta => _) = _
        rw [dictOrEmpty_obj]
        show (dictOrEmpty (Dict.get fields "delta") >>= fun delta => _) = _
        rw [hread]
        rfl
      show deltaContent [("choices", .arr (.obj fields :: choices))] = _ ∨ ∃ s,
        deltaContent [("choices", .arr (.obj fields :: choices))] = _
      rw [hcontents]
      rcases filter_text hcontent with hnone | ⟨s, hsome⟩
      · rw [hnone]
        exact Or.inl rfl
      · rw [hsome]
        exact Or.inr ⟨s, rfl⟩

theorem noteChunk_goesOn (py : Python) (u : StreamUsage) {chunk : Json} (h : ChunkShape chunk) :
    (noteChunk py u chunk).2 = true := by
  match chunk, h with
  | .obj fields, ⟨hchoices, husage⟩ =>
    unfold noteChunk
    dsimp only
    rcases deltaContent_text hchoices with hnone | ⟨s, hsome⟩
    · rw [hnone]
      exact noteUsage_goesOn py u husage
    · rw [hsome]
      exact noteUsage_goesOn py _ husage

/-! ### The fold of the chunks -/

namespace StreamGuard
variable (g : StreamGuard)

def note (u : GuardUsage) (chunk : Json) : GuardUsage :=
  { toStreamUsage := (noteChunk g.py u.toStreamUsage chunk).1, chunks := u.chunks + 1 }

/-- The usage costs more than the hold. -/
def Exceeds (u : GuardUsage) : Prop := ∃ est, g.estimate u = some est ∧ g.reservedUsd < est

/-- No chunk takes the usage over the hold. -/
def Within (u : GuardUsage) (chunks : List Json) : Prop :=
  ∀ n < chunks.length, ¬ g.Exceeds ((chunks.take (n + 1)).foldl g.note u)

/-- The guard can quote the model. -/
def Quotes : Prop := ∀ u, ∃ est, g.estimate u = some est

variable {g}

theorem within_cons {u : GuardUsage} {chunk : Json} {chunks : List Json} :
    g.Within u (chunk :: chunks) ↔ ¬ g.Exceeds (g.note u chunk) ∧ g.Within (g.note u chunk) chunks := by
  constructor
  · intro h
    refine ⟨h 0 (Nat.succ_pos _), fun n hn => ?_⟩
    exact h (n + 1) (Nat.succ_lt_succ hn)
  · rintro ⟨hfirst, hlater⟩ n hn
    cases n with
    | zero => exact hfirst
    | succ n => exact hlater n (Nat.lt_of_succ_lt_succ hn)

theorem within_append {u : GuardUsage} {chunks chunks' : List Json} :
    g.Within u (chunks ++ chunks') ↔ g.Within u chunks ∧ g.Within (chunks.foldl g.note u) chunks' := by
  induction chunks generalizing u with
  | nil =>
    constructor
    · exact fun h => ⟨fun n hn => absurd hn (Nat.not_lt_zero n), h⟩
    · exact fun h => h.2
  | cons chunk chunks ih =>
    rw [List.cons_append, within_cons, within_cons, ih, List.foldl_cons, and_assoc]

/-! ### Blocks -/

theorem rebuild_done {u : GuardUsage} {line : List Char} {lines : List (List Char)}
    (h : g.json.payload line = .done) :
    g.rebuild u (line :: lines) =
      ((g.rebuild u lines).1, (g.rebuild u lines).2.1, line :: (g.rebuild u lines).2.2) := by
  have hdone : strip (line.drop 5) = doneMarker := by
    unfold JsonModule.payload at h
    dsimp only at h
    by_contra hne
    rw [if_neg hne] at h
    split at h <;> cases h
  rw [rebuild, if_pos hdone]

theorem rebuild_chunk (hquotes : g.Quotes) (hhold : 0 < g.reservedUsd) {u : GuardUsage}
    {line : List Char} {chunk : Json} (h : g.json.payload line = .chunk chunk)
    (hshape : ChunkShape chunk) (lines : List (List Char)) :
    (∃ text, g.json.loads text = some chunk) ∧
    (g.Exceeds (g.note u chunk) →
      (g.rebuild u (line :: lines)).1 = { g.note u chunk with killed := true } ∧
      (g.rebuild u (line :: lines)).2.1 = .killed) ∧
    (¬ g.Exceeds (g.note u chunk) → g.rebuild u (line :: lines) =
      ((g.rebuild (g.note u chunk) lines).1, (g.rebuild (g.note u chunk) lines).2.1,
        (dataPrefix ++ ' ' :: g.json.dumps chunk) :: (g.rebuild (g.note u chunk) lines).2.2)) := by
  have hdone : strip (line.drop 5) ≠ doneMarker := by
    intro heq
    unfold JsonModule.payload at h
    dsimp only at h
    rw [if_pos heq] at h
    cases h
  have hloads : g.json.loads (strip (line.drop 5)) = some chunk := by
    unfold JsonModule.payload at h
    dsimp only at h
    rw [if_neg hdone] at h
    split at h
    · rename_i value hvalue
      rw [hvalue]
      injection h with heq
      rw [heq]
    · cases h
  obtain ⟨est, hest⟩ := hquotes (g.note u chunk)
  have hgoesOn := noteChunk_goesOn g.py u.toStreamUsage hshape
  have hexceeds : g.Exceeds (g.note u chunk) ↔ g.reservedUsd < est := by
    unfold Exceeds
    rw [hest]
    simp
  have hstep : g.rebuild u (line :: lines) =
      if 0 < g.reservedUsd ∧ g.reservedUsd < est then
        ({ g.note u chunk with killed := true }, .killed, [])
      else
        ((g.rebuild (g.note u chunk) lines).1, (g.rebuild (g.note u chunk) lines).2.1,
          (dataPrefix ++ ' ' :: g.json.dumps chunk) :: (g.rebuild (g.note u chunk) lines).2.2) := by
    unfold note at hest ⊢
    rw [rebuild, if_neg hdone, hloads]
    dsimp only
    rw [if_neg (by rw [hgoesOn]; decide), hest]
  refine ⟨⟨_, hloads⟩, fun h => ?_, fun h => ?_⟩
  · rw [hstep, if_pos ⟨hhold, hexceeds.mp h⟩]
    exact ⟨rfl, rfl⟩
  · rw [hstep, if_neg fun hand => h (hexceeds.mpr hand.2)]

theorem rebuild_within (hquotes : g.Quotes) (hhold : 0 < g.reservedUsd) {lines : List (List Char)}
    (hlines : ∀ line ∈ lines, IsDataLine line)
    (hshaped : ∀ line ∈ lines, (g.json.payload line).Shaped) {u : GuardUsage}
    (h : g.Within u (chunksOf (lines.map g.json.payload))) :
    ∃ kept, g.rebuild u lines =
        ((chunksOf (lines.map g.json.payload)).foldl g.note u, .goesOn, kept) ∧
      kept.map g.json.payload = lines.map g.json.payload ∧ ∀ line ∈ kept, IsDataLine line := by
  induction lines generalizing u with
  | nil => exact ⟨[], rfl, rfl, List.forall_mem_nil _⟩
  | cons line lines ih =>
    have hlater : ∀ l ∈ lines, IsDataLine l := fun l hl => hlines l (List.mem_cons_of_mem line hl)
    have hshapes : ∀ l ∈ lines, (g.json.payload l).Shaped :=
      fun l hl => hshaped l (List.mem_cons_of_mem line hl)
    have hshape := hshaped line List.mem_cons_self
    cases hpayload : g.json.payload line with
    | done =>
      rw [List.map_cons, hpayload] at h ⊢
      obtain ⟨kept, hkept, hpayloads, hdata⟩ := ih hlater hshapes h
      refine ⟨line :: kept, ?_, ?_, ?_⟩
      · rw [rebuild_done hpayload, hkept]
        rfl
      · rw [List.map_cons, hpayload, hpayloads]
      · exact List.forall_mem_cons.mpr ⟨hlines line List.mem_cons_self, hdata⟩
    | chunk chunk =>
      rw [hpayload] at hshape
      obtain ⟨⟨text, hloads⟩, -, hgoesOn⟩ := rebuild_chunk hquotes hhold hpayload hshape lines
      rw [List.map_cons, hpayload] at h ⊢
      obtain ⟨hfirst, hrest⟩ := within_cons.mp h
      obtain ⟨kept, hkept, hpayloads, hdata⟩ := ih hlater hshapes hrest
      obtain ⟨hline, hread⟩ := g.json.payload_dumps hloads
      refine ⟨(dataPrefix ++ ' ' :: g.json.dumps chunk) :: kept, ?_, ?_, ?_⟩
      · rw [hgoesOn hfirst, hkept]
        rfl
      · rw [List.map_cons, hread, hpayloads]
      · exact List.forall_mem_cons.mpr ⟨hline, hdata⟩
    | text payload =>
      rw [hpayload] at hshape
      exact hshape.elim

theorem rebuild_killed (hquotes : g.Quotes) (hhold : 0 < g.reservedUsd) {lines : List (List Char)}
    (hshaped : ∀ line ∈ lines, (g.json.payload line).Shaped) {u : GuardUsage}
    {before after : List Json} {chunk : Json}
    (hchunks : chunksOf (lines.map g.json.payload) = before ++ chunk :: after)
    (h : g.Within u before) (hexceeds : g.Exceeds ((before ++ [chunk]).foldl g.note u)) :
    (g.rebuild u lines).1 = { (before ++ [chunk]).foldl g.note u with killed := true } ∧
      (g.rebuild u lines).2.1 = .killed := by
  induction lines generalizing u before with
  | nil =>
    have hlength := congrArg List.length hchunks
    simp [chunksOf] at hlength
  | cons line lines ih =>
    have hshapes : ∀ l ∈ lines, (g.json.payload l).Shaped :=
      fun l hl => hshaped l (List.mem_cons_of_mem line hl)
    have hshape := hshaped line List.mem_cons_self
    cases hpayload : g.json.payload line with
    | done =>
      rw [List.map_cons, hpayload] at hchunks
      obtain ⟨husage, hexit⟩ := ih hshapes hchunks h hexceeds
      rw [rebuild_done hpayload]
      exact ⟨husage, hexit⟩
    | chunk first =>
      rw [hpayload] at hshape
      obtain ⟨-, hkilled, hgoesOn⟩ := rebuild_chunk hquotes hhold hpayload hshape lines
      rw [List.map_cons, hpayload] at hchunks
      have hcons : first :: chunksOf (lines.map g.json.payload) = before ++ chunk :: after := hchunks
      cases before with
      | nil =>
        rw [List.nil_append, List.cons.injEq] at hcons
        rw [List.nil_append, ← hcons.1] at hexceeds ⊢
        exact hkilled hexceeds
      | cons b before =>
        rw [List.cons_append, List.cons.injEq] at hcons
        rw [← hcons.1] at h hexceeds ⊢
        obtain ⟨hfirst, hrest⟩ := within_cons.mp h
        rw [hgoesOn hfirst]
        exact ih hshapes hcons.2 hrest hexceeds
    | text payload =>
      rw [hpayload] at hshape
      exact hshape.elim

/-- The line that the proxied completion sees for a payload. -/
def sseLine : Payload → SseLine
  | .chunk value => .chunk value
  | _ => .passed

/-- The lines of a block are to the guard what they are to the proxied completion. -/
theorem rebuild_processBlock {quote : ℤ → ℤ → ℚ}
    (hquote : ∀ u, g.estimate u = some (quote u.inputTokens u.outputTokens))
    (lines : List (List Char)) (u : GuardUsage) :
    let r := Gateway.processBlock g.py quote g.reservedUsd u.toStreamUsage
      (lines.map fun line => sseLine (g.json.payload line))
    (g.rebuild u lines).1.toStreamUsage = r.1 ∧ (g.rebuild u lines).2.1 = r.2 := by
  induction lines generalizing u with
  | nil => exact ⟨rfl, rfl⟩
  | cons line lines ih =>
    rw [List.map_cons, rebuild]
    unfold JsonModule.payload
    dsimp only
    split_ifs with hdone
    · exact ih u
    · cases g.json.loads (strip (line.drop 5)) with
      | none => exact ih u
      | some chunk =>
        dsimp only [sseLine]
        rw [Gateway.processBlock]
        cases hnote : noteChunk g.py u.toStreamUsage chunk with
        | mk noted goesOn =>
          cases goesOn with
          | false => exact ⟨rfl, rfl⟩
          | true =>
            dsimp only
            rw [if_neg (by decide), hquote]
            dsimp only
            split_ifs
            · exact ⟨rfl, rfl⟩
            · exact ih _

def Ended (out : List Char) : Prop := out = [] ∨ ∃ text, out = text ++ ['\n', '\n']

theorem payloads_of_ended {out : List Char} (h : Ended out) (text : List Char) :
    g.json.payloads (out ++ text) = g.json.payloads out ++ g.json.payloads text := by
  rcases h with rfl | ⟨begun, rfl⟩
  · rfl
  · have hend := g.json.payloads_ended begun []
    rw [List.append_nil] at hend
    rw [g.json.payloads_ended, hend, List.append_assoc]
    rfl

theorem processBlock_within (hquotes : g.Quotes) (hhold : 0 < g.reservedUsd) {text : List Char}
    (hshaped : ∀ p ∈ g.json.payloads text, p.Shaped) {u : GuardUsage}
    (h : g.Within u (chunksOf (g.json.payloads text))) :
    ∃ out, g.processBlock u text =
        ((chunksOf (g.json.payloads text)).foldl g.note u, .goesOn, out) ∧
      g.json.payloads out = g.json.payloads text ∧ Ended out := by
  by_cases hlines : dataLines text = []
  · have hnone : g.json.payloads text = [] := by
      unfold JsonModule.payloads
      rw [hlines]
      rfl
    rw [processBlock, if_pos hlines, hnone]
    refine ⟨_, rfl, ?_, ?_⟩
    · split_ifs
      · rfl
      · have hend := g.json.payloads_ended text []
        rw [List.append_nil, hnone] at hend
        exact hend
    · split_ifs
      · exact Or.inl rfl
      · exact Or.inr ⟨text, rfl⟩
  · obtain ⟨kept, hkept, hpayloads, hdata⟩ := rebuild_within hquotes hhold
      (fun line hline => isDataLine_of_mem hline)
      (fun line hline => hshaped _ (List.mem_map_of_mem hline)) h
    have hne : kept ≠ [] := by
      rintro rfl
      exact hlines (List.map_eq_nil_iff.mp hpayloads.symm)
    rw [processBlock, if_neg hlines]
    dsimp only
    rw [hkept]
    refine ⟨_, rfl, ?_, Or.inr ⟨_, rfl⟩⟩
    have hend := g.json.payloads_ended (['\n'].intercalate kept) []
    rw [List.append_nil] at hend
    rw [hend]
    unfold JsonModule.payloads
    rw [dataLines_intercalate hdata hne, hpayloads]
    exact List.append_nil _

/-! ### Runs -/

/-- The stream so far has forwarded these payloads. -/
structure Forwarded (g : StreamGuard) (r : StreamResult) (payloads : List Payload) : Prop where
  goesOn : r.exit = .goesOn
  usage : r.usage = (chunksOf payloads).foldl g.note {}
  sent : ∃ out, Ended out ∧ r.yielded.flatten = Utf8.encode out ∧ g.json.payloads out = payloads

theorem forwarded_start : Forwarded g {} [] :=
  ⟨rfl, rfl, [], Or.inl rfl, rfl, rfl⟩

private theorem forwarded_block (hquotes : g.Quotes) (hhold : 0 < g.reservedUsd) {r : StreamResult}
    {payloads : List Payload} (hr : Forwarded g r payloads) {text : List Char}
    (hshaped : ∀ p ∈ g.json.payloads text, p.Shaped)
    (h : g.Within r.usage (chunksOf (g.json.payloads text))) :
    Forwarded g (g.block r text) (payloads ++ g.json.payloads text) := by
  obtain ⟨out, hprocess, hpayloads, hended⟩ := processBlock_within hquotes hhold hshaped h
  obtain ⟨sent, hsentEnded, hsent, hsentPayloads⟩ := hr.sent
  unfold block
  rw [if_pos hr.goesOn, hprocess]
  refine ⟨hr.goesOn, ?_, sent ++ out, ?_, ?_, ?_⟩
  · dsimp only
    rw [chunksOf_append, List.foldl_append, hr.usage]
  · rcases hended with rfl | ⟨text', rfl⟩
    · rw [List.append_nil]
      exact hsentEnded
    · exact Or.inr ⟨sent ++ text', (List.append_assoc _ _ _).symm⟩
  · dsimp only
    rw [Utf8.encode_append]
    split_ifs with hout
    · rw [hout, hsent]
      exact (List.append_nil _).symm
    · rw [List.flatten_append, hsent, List.flatten_singleton]
  · rw [payloads_of_ended hsentEnded, hsentPayloads, hpayloads]

theorem forwarded_blocks (hquotes : g.Quotes) (hhold : 0 < g.reservedUsd) {blocks : List (List Char)}
    {r : StreamResult} {payloads : List Payload} (hr : Forwarded g r payloads)
    (hshaped : ∀ text ∈ blocks, ∀ p ∈ g.json.payloads text, p.Shaped)
    (h : g.Within r.usage (chunksOf (blocks.flatMap g.json.payloads))) :
    Forwarded g (blocks.foldl g.block r) (payloads ++ blocks.flatMap g.json.payloads) := by
  induction blocks generalizing r payloads with
  | nil =>
    rw [List.flatMap_nil, List.append_nil]
    exact hr
  | cons text blocks ih =>
    rw [List.flatMap_cons, chunksOf_append] at h
    obtain ⟨hfirst, hrest⟩ := within_append.mp h
    have hnext := forwarded_block hquotes hhold hr (hshaped text List.mem_cons_self) hfirst
    have husage : (g.block r text).usage =
        (chunksOf (g.json.payloads text)).foldl g.note r.usage := by
      rw [hnext.usage, hr.usage, chunksOf_append, List.foldl_append]
    rw [List.flatMap_cons, ← List.append_assoc]
    refine ih hnext (fun t ht => hshaped t (List.mem_cons_of_mem text ht)) ?_
    rw [husage]
    exact hrest

theorem block_killed (hquotes : g.Quotes) (hhold : 0 < g.reservedUsd) {r : StreamResult}
    (hr : r.exit = .goesOn) {text : List Char} (hshaped : ∀ p ∈ g.json.payloads text, p.Shaped)
    {before after : List Json} {chunk : Json}
    (hchunks : chunksOf (g.json.payloads text) = before ++ chunk :: after)
    (h : g.Within r.usage before) (hexceeds : g.Exceeds ((before ++ [chunk]).foldl g.note r.usage)) :
    let u : GuardUsage := { (before ++ [chunk]).foldl g.note r.usage with killed := true }
    ∃ kill, g.killSse u = some kill ∧ g.block r text =
      { usage := u, exit := .killed, yielded := r.yielded ++ [Utf8.encode kill] } := by
  intro u
  have hlines : dataLines text ≠ [] := by
    intro hnone
    have hlength := congrArg List.length hchunks
    unfold JsonModule.payloads at hlength
    rw [hnone] at hlength
    simp [chunksOf] at hlength
  obtain ⟨husage, hexit⟩ := rebuild_killed hquotes hhold
    (fun line hline => hshaped _ (List.mem_map_of_mem hline)) hchunks h hexceeds
  obtain ⟨est, hest⟩ := hquotes u
  have hkill : ∃ kill, g.killSse u = some kill := by
    unfold killSse
    rw [hest]
    exact ⟨_, rfl⟩
  obtain ⟨kill, hkill⟩ := hkill
  refine ⟨kill, hkill, ?_⟩
  unfold block processBlock
  rw [if_pos hr, if_neg hlines]
  dsimp only
  rw [hexit, husage]
  dsimp only
  rw [hkill]

theorem foldl_block_killed {r : StreamResult} (h : r.exit = .killed) (blocks : List (List Char)) :
    blocks.foldl g.block r = r :=
  foldl_take_stopped block_stopped (decide_eq_true (by rw [h]; decide)) blocks

theorem readText_eq (text : List Char) : g.readText text = (sseBlocks text).foldl g.block {} := by
  unfold readText finish sseBlocks
  rw [List.foldl_append, List.foldl_cons, List.foldl_nil]
  dsimp only
  generalize (frames '\n' text).1.foldl g.block {} = r
  by_cases hexit : r.exit = .goesOn
  · by_cases hblank : strip (frames '\n' text).2 = []
    · rw [if_neg fun hand => hand.2 hblank]
      unfold block processBlock
      rw [if_pos hexit, if_pos (dataLines_blank hblank), if_pos hblank]
      rfl
    · rw [if_pos ⟨hexit, hblank⟩]
  · rw [if_neg fun hand => hexit hand.1, block_stopped r _ (decide_eq_true hexit)]

/-! ### The first chunk over the hold -/

theorem quotes_of_prefixes (h : ∀ p ∈ g.catalog.prefixModels, ∃ s, p = .str s) : g.Quotes :=
  fun _ => Pricing.Loader.PricingCatalog.quoteUsd_eq_some h _ _

/-- The usage of the chunks. -/
def usageOf (g : StreamGuard) (chunks : List Json) : GuardUsage := chunks.foldl g.note {}

/-- After this chunk, and no earlier one, the usage so far costs more than the hold. -/
def FirstOver (g : StreamGuard) (chunks : List Json) (n : ℕ) : Prop :=
  n < chunks.length ∧ g.Exceeds (g.usageOf (chunks.take (n + 1))) ∧
    ∀ m < n, ¬ g.Exceeds (g.usageOf (chunks.take (m + 1)))

/-- What the guard makes of a stream: with a first chunk over the hold the client gets the payloads of
the blocks before its block, after an empty line the kill error and `[DONE]`, and the usage is that of
the chunks up to it; otherwise it gets every payload, and the usage is that of all chunks. -/
structure ForwardsUntilOver (g : StreamGuard) (text : List Char) (r : StreamResult) : Prop where
  killed : ∀ n, g.FirstOver (chunksOf (g.json.payloads text)) n →
    let u : GuardUsage :=
      { g.usageOf ((chunksOf (g.json.payloads text)).take (n + 1)) with killed := true }
    ∃ earlier current later sent kill, sseBlocks text = earlier ++ current :: later ∧
      (chunksOf (earlier.flatMap g.json.payloads)).length ≤ n ∧
      n < (chunksOf ((earlier ++ [current]).flatMap g.json.payloads)).length ∧
      Utf8.decode r.yielded.flatten = sent ++ kill ∧ Ended sent ∧
      g.json.payloads sent = earlier.flatMap g.json.payloads ∧ g.killSse u = some kill ∧
      r.usage = u ∧ r.exit = .killed
  forwarded : (∀ n, ¬ g.FirstOver (chunksOf (g.json.payloads text)) n) →
    g.json.payloads (Utf8.decode r.yielded.flatten) = g.json.payloads text ∧
      r.usage = g.usageOf (chunksOf (g.json.payloads text)) ∧ r.exit = .goesOn

theorem exists_block (J : JsonModule) {blocks : List (List Char)} {n : ℕ}
    (h : n < (chunksOf (blocks.flatMap J.payloads)).length) :
    ∃ earlier current later, blocks = earlier ++ current :: later ∧
      (chunksOf (earlier.flatMap J.payloads)).length ≤ n ∧
      n < (chunksOf ((earlier ++ [current]).flatMap J.payloads)).length := by
  induction blocks generalizing n with
  | nil => exact absurd h (Nat.not_lt_zero n)
  | cons text blocks ih =>
    rw [List.flatMap_cons, chunksOf_append, List.length_append] at h
    by_cases hn : n < (chunksOf (J.payloads text)).length
    · refine ⟨[], text, blocks, rfl, Nat.zero_le n, ?_⟩
      rw [List.nil_append, List.flatMap_singleton]
      exact hn
    · obtain ⟨earlier, current, later, rfl, hlow, hhigh⟩ :=
        ih (n := n - (chunksOf (J.payloads text)).length) (by omega)
      refine ⟨text :: earlier, current, later, rfl, ?_, ?_⟩
      · rw [List.flatMap_cons, chunksOf_append, List.length_append]
        omega
      · rw [List.cons_append, List.flatMap_cons, chunksOf_append, List.length_append]
        omega

theorem within_of_not_firstOver {chunks : List Json} (h : ∀ n, ¬ g.FirstOver chunks n) :
    g.Within {} chunks := by
  intro n
  induction n using Nat.strong_induction_on with
  | _ n ih =>
    intro hn hexceeds
    exact h n ⟨hn, hexceeds, fun m hm => ih m hm (hm.trans hn)⟩

private theorem within_take_of_firstOver {chunks : List Json} {n : ℕ} (h : g.FirstOver chunks n) :
    g.Within {} (chunks.take n) := by
  intro m hm
  rw [List.length_take] at hm
  rw [List.take_take, min_eq_left (by omega)]
  exact h.2.2 m (by omega)

private theorem take_blocks (J : JsonModule) {earlier : List (List Char)} {current : List Char}
    {n : ℕ}
    (hlow : (chunksOf (earlier.flatMap J.payloads)).length ≤ n)
    (hhigh : n < (chunksOf ((earlier ++ [current]).flatMap J.payloads)).length)
    (later : List (List Char)) :
    ∃ before chunk after, chunksOf (J.payloads current) = before ++ chunk :: after ∧
      (chunksOf ((earlier ++ current :: later).flatMap J.payloads)).take n =
        chunksOf (earlier.flatMap J.payloads) ++ before ∧
      (chunksOf ((earlier ++ current :: later).flatMap J.payloads)).take (n + 1) =
        chunksOf (earlier.flatMap J.payloads) ++ (before ++ [chunk]) := by
  rw [List.flatMap_append, List.flatMap_singleton, chunksOf_append, List.length_append] at hhigh
  rw [List.flatMap_append, List.flatMap_cons, chunksOf_append, chunksOf_append]
  generalize chunksOf (earlier.flatMap J.payloads) = A at *
  generalize chunksOf (J.payloads current) = B at *
  obtain ⟨k, rfl⟩ := Nat.exists_eq_add_of_le hlow
  have hk : k < B.length := by omega
  refine ⟨B.take k, B[k], B.drop (k + 1), ?_, ?_, ?_⟩
  · rw [List.cons_getElem_drop_succ, List.take_append_drop]
  · rw [List.take_length_add_append, List.take_append_of_le_length hk.le]
  · rw [Nat.add_assoc, List.take_length_add_append, List.take_append_of_le_length hk,
      List.take_append_getElem]

private theorem readText_forwardsUntilOver (hquotes : g.Quotes) (hhold : 0 < g.reservedUsd)
    {text : List Char} (hshaped : ∀ p ∈ g.json.payloads text, p.Shaped) :
    g.ForwardsUntilOver text (g.readText text) := by
  have hblocks := g.json.payloads_blocks text
  have hshapes : ∀ block ∈ sseBlocks text, ∀ p ∈ g.json.payloads block, p.Shaped := by
    intro block hblock p hp
    apply hshaped
    rw [hblocks]
    exact List.mem_flatMap.mpr ⟨block, hblock, hp⟩
  rw [readText_eq]
  constructor
  case forwarded =>
    intro hnone
    have hwithin := within_of_not_firstOver hnone
    rw [hblocks] at hwithin ⊢
    have hrun := forwarded_blocks hquotes hhold forwarded_start hshapes hwithin
    obtain ⟨sent, -, hsent, hpayloads⟩ := hrun.sent
    refine ⟨?_, hrun.usage, hrun.goesOn⟩
    rw [hsent, Utf8.decode_encode, hpayloads]
    rfl
  case killed =>
    intro n hn u
    obtain ⟨earlier, current, later, hsplit, hlow, hhigh⟩ :=
      exists_block g.json (hblocks ▸ hn.1)
    rw [hsplit] at hblocks hshapes
    obtain ⟨before, chunk, after, hchunks, htake, htakeNext⟩ :=
      take_blocks g.json hlow hhigh later
    rw [← hblocks] at htake htakeNext
    have hwithin := within_take_of_firstOver hn
    rw [htake] at hwithin
    obtain ⟨hearlier, hbefore⟩ := within_append.mp hwithin
    have hrun := forwarded_blocks hquotes hhold forwarded_start
      (fun block hblock => hshapes block (List.mem_append_left _ hblock)) hearlier
    rw [List.nil_append] at hrun
    obtain ⟨sent, hended, hsent, hpayloads⟩ := hrun.sent
    have husage : (before ++ [chunk]).foldl g.note (earlier.foldl g.block {}).usage =
        g.usageOf ((chunksOf (g.json.payloads text)).take (n + 1)) := by
      rw [usageOf, htakeNext, hrun.usage, ← List.foldl_append]
    rw [← hrun.usage] at hbefore
    have hexceeds := hn.2.1
    rw [← husage] at hexceeds
    obtain ⟨kill, hkill, hblock⟩ := block_killed hquotes hhold hrun.goesOn
      (hshapes current (List.mem_append_right _ List.mem_cons_self)) hchunks hbefore hexceeds
    rw [husage] at hkill hblock
    refine ⟨earlier, current, later, sent, kill, hsplit, hlow, hhigh, ?_⟩
    rw [hsplit, List.foldl_append, List.foldl_cons, hblock, foldl_block_killed rfl]
    refine ⟨?_, hended, hpayloads, hkill, rfl, rfl⟩
    rw [List.flatten_append, List.flatten_singleton, hsent, ← Utf8.encode_append,
      Utf8.decode_encode]

/-- The guard forwards an ASCII stream of chunks until the first one that exceeds the hold. -/
theorem transform_forwardsUntilOver (g : StreamGuard) (upstream : List (List UInt8))
    (hascii : ∀ b ∈ upstream.flatten, b.toNat < 0x80) (hhold : 0 < g.reservedUsd)
    (hprefixes : ∀ p ∈ g.catalog.prefixModels, ∃ s, p = .str s)
    (hshaped : ∀ p ∈ g.json.payloads (Utf8.decode upstream.flatten), p.Shaped) :
    g.ForwardsUntilOver (Utf8.decode upstream.flatten) (g.transform upstream) := by
  rw [transform_eq, (Utf8.decode_pieces upstream).mpr (Utf8.whole_ascii hascii)]
  exact readText_forwardsUntilOver (quotes_of_prefixes hprefixes) hhold hshaped

end StreamGuard

def helloStream : List Char :=
  dataPrefix ++ ' ' :: helloText ++ ['\n', '\n'] ++ (dataPrefix ++ ' ' :: helloText ++ ['\n', '\n'] ++
    (dataPrefix ++ ' ' :: doneMarker ++ ['\n', '\n']))

theorem payloads_helloStream :
    JsonModule.onHello.payloads helloStream = [.chunk helloChunk, .chunk helloChunk, .done] := by
  rfl

theorem chunkShape_hello : ChunkShape helloChunk := by
  refine ⟨?_, trivial⟩
  show ∀ choice ∈ [Json.obj [("delta", .obj [("content", .str "hello")])]], ChoiceShape choice
  exact List.forall_mem_singleton.mpr trivial

/-- The stream in two pieces. -/
def helloUpstream : List (List UInt8) :=
  [(Utf8.encode helloStream).take 7, (Utf8.encode helloStream).drop 7]

/-- The second chunk takes the usage over the hold. -/
theorem StreamGuard.forwardsUntilOver_hello :
    StreamGuard.onHello.ForwardsUntilOver (Utf8.decode helloUpstream.flatten)
        (StreamGuard.onHello.transform helloUpstream) ∧
      (StreamGuard.onHello.transform helloUpstream).exit = .killed := by
  refine ⟨transform_forwardsUntilOver _ _ (by decide +kernel) (by decide +kernel)
    (List.forall_mem_nil _) ?_, by decide +kernel⟩
  have hflatten : helloUpstream.flatten = Utf8.encode helloStream := by
    simp [helloUpstream]
  have hpayloads : StreamGuard.onHello.json.payloads helloStream = _ := payloads_helloStream
  rw [hflatten, Utf8.decode_encode, hpayloads]
  simp only [List.forall_mem_cons]
  exact ⟨chunkShape_hello, chunkShape_hello, trivial, List.forall_mem_nil _⟩

end FluxMeter.Gateway
