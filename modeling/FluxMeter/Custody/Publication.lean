import FluxMeter.Custody.Dispatcher
import FluxMeter.Wire.Json

/-! The publication of a batch of messages: what became of each, as the producer's call tells it.
`publish_batch_with_ack` and the dispatcher both tell that a message was acknowledged only when it
was. -/
namespace FluxMeter.Custody
open FluxMeter.Wire Transition

structure Message where
  topic : String
  key : String
  envelope : Dict

/-- A message that was published without an error was acknowledged by the broker. -/
structure Publication (messages : List Message) where
  outcomes : List (Option PublishError)
  produced : List Message
  acked : List Message
  length_outcomes : outcomes.length = messages.length
  produced_sublist : produced.Sublist messages
  acked_of_none : ∀ (i : ℕ) (m : Message), messages[i]? = some m → outcomes[i]? = some none →
    m ∈ acked

/-! ### A producer without a dispatcher -/

/-- How `produce` ends. -/
inductive Produced
  | queued
  | bufferError
  | raised
  deriving DecidableEq

/-- The outcome of a message after `produce`; none while it is pending. -/
def Produced.outcome : Produced → Option (Option PublishError)
  | .queued => none
  | .bufferError => some (some .overloaded)
  | .raised => some (some .unavailable)

/-- `on_delivery` of the message with an index. -/
def onDelivery (outcomes : List (Option (Option PublishError))) (report : ℕ × Bool) :
    List (Option (Option PublishError)) :=
  match outcomes[report.1]? with
  | some none => outcomes.set report.1 (some (if report.2 then none else some .unavailable))
  | _ => outcomes

/-- `publish_batch_with_ack`: the deliveries are those that the polls report before the deadline. -/
def publishBatchWithAck (replies : List Produced) (reports : List (ℕ × Bool)) :
    List (Option PublishError) :=
  (reports.foldl onDelivery (replies.map Produced.outcome)).map fun outcome =>
    outcome.getD (some .uncertain)

private theorem length_onDelivery (outcomes : List (Option (Option PublishError)))
    (report : ℕ × Bool) :
    (onDelivery outcomes report).length = outcomes.length := by
  unfold onDelivery
  split
  · exact List.length_set
  · rfl

theorem reported_of_none {reports : List (ℕ × Bool)} {i : ℕ}
    {outcomes : List (Option (Option PublishError))}
    (hstart : outcomes[i]? ≠ some (some none))
    (h : (reports.foldl onDelivery outcomes)[i]? = some (some none)) :
    outcomes[i]? = some none ∧ (i, true) ∈ reports := by
  induction reports generalizing outcomes with
  | nil => exact absurd h hstart
  | cons report reports ih =>
    rw [List.foldl_cons] at h
    by_cases hreport : report.1 = i
    · by_cases hpending : outcomes[i]? = some none
      · cases hdelivered : report.2 with
        | true =>
          refine ⟨hpending, ?_⟩
          have heq : report = (i, true) := Prod.ext hreport hdelivered
          rw [heq]
          exact List.mem_cons_self
        | false =>
          have hnow : (onDelivery outcomes report)[i]? = some (some (some .unavailable)) := by
            obtain ⟨hlt, -⟩ := List.getElem?_eq_some_iff.mp hpending
            unfold onDelivery
            rw [hreport, hpending]
            dsimp only
            rw [List.getElem?_set_self hlt, hdelivered]
            rfl
          obtain ⟨hnone, -⟩ := ih (by rw [hnow]; simp) h
          rw [hnow] at hnone
          cases hnone
      · have hsame : onDelivery outcomes report = outcomes := by
          unfold onDelivery
          rw [hreport]
          split
          next hnone => exact absurd hnone hpending
          next => rfl
        rw [hsame] at h
        obtain ⟨hnone, hmem⟩ := ih hstart h
        exact ⟨hnone, List.mem_cons_of_mem _ hmem⟩
    · have hsame : (onDelivery outcomes report)[i]? = outcomes[i]? := by
        unfold onDelivery
        split
        · exact List.getElem?_set_ne hreport
        · rfl
      obtain ⟨hnone, hmem⟩ := ih (by rw [hsame]; exact hstart) h
      exact ⟨by rw [← hsame]; exact hnone, List.mem_cons_of_mem _ hmem⟩

theorem length_deliveries (reports : List (ℕ × Bool))
    (outcomes : List (Option (Option PublishError))) :
    (reports.foldl onDelivery outcomes).length = outcomes.length := by
  induction reports generalizing outcomes with
  | nil => rfl
  | cons report reports ih =>
    rw [List.foldl_cons, ih, length_onDelivery]

/-- The messages at the places that satisfy a condition. -/
def chosen (messages : List Message) (p : ℕ → Bool) : List Message :=
  (messages.zipIdx.filter fun x => p x.2).map Prod.fst

theorem chosen_sublist (messages : List Message) (p : ℕ → Bool) :
    (chosen messages p).Sublist messages := by
  have h := (List.filter_sublist (p := fun x : Message × ℕ => p x.2)
    (l := messages.zipIdx)).map Prod.fst
  rwa [List.zipIdx_map_fst] at h

theorem mem_chosen {messages : List Message} {p : ℕ → Bool} {i : ℕ} {m : Message}
    (hm : messages[i]? = some m) (hp : p i = true) : m ∈ chosen messages p := by
  apply List.mem_map.mpr
  refine ⟨(m, i), List.mem_filter.mpr ⟨?_, hp⟩, rfl⟩
  rw [List.mem_zipIdx_iff_getElem?]
  exact hm

/-- The publication by a producer without a dispatcher. -/
def Publication.ofProducer (messages : List Message) (replies : List Produced)
    (reports : List (ℕ × Bool)) (hlength : replies.length = messages.length) :
    Publication messages where
  outcomes := publishBatchWithAck replies reports
  produced := chosen messages fun i => replies[i]? = some .queued
  acked := chosen messages fun i => replies[i]? = some .queued && (i, true) ∈ reports
  length_outcomes := by
    unfold publishBatchWithAck
    rw [List.length_map, length_deliveries, List.length_map, hlength]
  produced_sublist := chosen_sublist _ _
  acked_of_none i m hm hnone := by
    apply mem_chosen hm
    unfold publishBatchWithAck at hnone
    rw [List.getElem?_map] at hnone
    obtain ⟨outcome, houtcome, hget⟩ := Option.map_eq_some_iff.mp hnone
    have htold : outcome = some none := by
      cases outcome with
      | none => cases hget
      | some o => rw [show o = none from hget]
    rw [htold] at houtcome
    have hfresh : (replies.map Produced.outcome)[i]? ≠ some (some none) := by
      rw [List.getElem?_map]
      intro heq
      obtain ⟨reply, -, hreply⟩ := Option.map_eq_some_iff.mp heq
      cases reply <;> cases hreply
    obtain ⟨hpending, hreported⟩ := reported_of_none hfresh houtcome
    rw [List.getElem?_map] at hpending
    obtain ⟨reply, hget', hreply⟩ := Option.map_eq_some_iff.mp hpending
    have hqueued : reply = .queued := by
      cases reply with
      | queued => rfl
      | bufferError => cases hreply
      | raised => cases hreply
    rw [hget', hqueued]
    simpa using hreported

/-! ### The dispatcher -/

namespace Dispatcher
variable {m m' : Delivery} {c c' : Call}

/-- A batch message without an error is acknowledged as soon as the thread may go on. -/
structure Honest (m : Delivery) : Prop where
  unsent : m.stage = .acquiring ∨ m.stage = .producing → m.broker = .unsent
  signalled : m.delivered = true → m.outcome ≠ none ∨ m.broker.succeeded = true
  setting : m.broker = .reported false .setting → m.outcome ≠ none
  signalling : m.stage = .signalling → m.outcome ≠ none
  reconciling : ∀ inRace lateSucceeded, m.stage = .reconciling inRace lateSucceeded →
    m.outcome ≠ none
  done : m.stage = .done → m.outcome ≠ none ∨ m.broker.succeeded = true

theorem dispatchLate_same (m : Delivery) (succeeded : Bool) :
    (m.dispatchLate succeeded).stage = m.stage ∧ (m.dispatchLate succeeded).outcome = m.outcome ∧
      (m.dispatchLate succeeded).broker = m.broker ∧
      (m.dispatchLate succeeded).delivered = m.delivered := by
  unfold Delivery.dispatchLate
  split_ifs
  · exact ⟨rfl, rfl, rfl, rfl⟩
  · exact ⟨rfl, rfl, rfl, rfl⟩

private theorem honest_thread (h : Honest m) (hstep : m.thread .batch = some m') : Honest m' := by
  unfold Delivery.thread at hstep
  split at hstep
  next hkind => cases hkind
  next error hstage _ =>
    rw [← Option.some.inj hstep]
    constructor <;> grind -ring -linarith [Honest]
  next error hstage =>
    rw [← Option.some.inj hstep]
    constructor <;> grind -ring -linarith [Honest]
  next hstage =>
    rw [← Option.some.inj hstep]
    constructor <;> grind -ring -linarith [Honest]
  next hkind => cases hkind
  next hstage _ =>
    split_ifs at hstep with hdelivered
    rw [← Option.some.inj hstep]
    constructor <;> grind -ring -linarith [Honest]
  next hkind => cases hkind
  next hstage _ =>
    rw [← Option.some.inj hstep]
    constructor <;> grind -ring -linarith [Honest]
  next inRace hstage =>
    rw [← Option.some.inj hstep]
    constructor <;> grind -ring -linarith [Honest]
  next inRace b hstage =>
    rw [← Option.some.inj hstep]
    constructor <;> grind -ring -linarith [Honest]
  next inRace b hstage =>
    obtain ⟨-, houtcome, hbroker, hdelivered⟩ := dispatchLate_same m b
    rw [← Option.some.inj hstep]
    constructor <;> grind -ring -linarith [Honest]
  next => cases hstep

private theorem honest_onDelivery (h : Honest m) (hstep : m.onDelivery = some m') : Honest m' := by
  unfold Delivery.onDelivery at hstep
  split at hstep
  next hbroker =>
    rw [← Option.some.inj hstep]
    constructor <;> grind -ring -linarith [Honest]
  next hbroker =>
    rw [← Option.some.inj hstep]
    constructor <;> grind -ring -linarith [Honest]
  next succeeded hbroker =>
    rw [← Option.some.inj hstep]
    cases succeeded with
    | true => constructor <;> grind -ring -linarith [Honest]
    | false => constructor <;> grind -ring -linarith [Honest]
  next succeeded hbroker =>
    rw [← Option.some.inj hstep]
    constructor <;> grind -ring -linarith [Honest]
  next succeeded hbroker =>
    obtain ⟨hstage, houtcome, -, hdelivered⟩ := dispatchLate_same m succeeded
    rw [← Option.some.inj hstep]
    constructor <;> grind -ring -linarith [Honest]
  next => cases hstep

theorem honest_advance {mv : Move} (h : Honest m) (hstep : m.advance .batch mv = some m') :
    Honest m' := by
  unfold Delivery.advance at hstep
  cases mv with
  | acquire granted =>
    dsimp only at hstep
    split_ifs at hstep with hstage
    rw [← Option.some.inj hstep]
    unfold Delivery.acquire
    cases granted with
    | true => constructor <;> grind -ring -linarith [Honest]
    | false => constructor <;> grind -ring -linarith [Honest]
  | produce error =>
    dsimp only at hstep
    split_ifs at hstep with hstage
    unfold Delivery.produce at hstep
    split at hstep
    next =>
      rw [← Option.some.inj hstep]
      constructor <;> grind -ring -linarith [Honest]
    next => cases hstep
    next =>
      rw [← Option.some.inj hstep]
      constructor <;> grind -ring -linarith [Honest]
  | thread => exact honest_thread h hstep
  | timeout =>
    dsimp only at hstep
    split_ifs at hstep with hwait
    rw [← Option.some.inj hstep]
    constructor <;> grind -ring -linarith [Honest]
  | report succeeded =>
    dsimp only at hstep
    split_ifs at hstep with hbroker
    rw [← Option.some.inj hstep]
    constructor <;> grind -ring -linarith [Honest]
  | callback => exact honest_onDelivery h hstep

theorem honest_init (late : Bool) : Honest { late } := by
  constructor <;> grind

private theorem done_advance {mv : Move} (h : m.stage = .done)
    (hstep : m.advance .batch mv = some m') :
    m'.stage = .done := by
  cases mv with
  | acquire granted => simp [Delivery.advance, h] at hstep
  | produce error => simp [Delivery.advance, h] at hstep
  | thread => simp [Delivery.advance, Delivery.thread, h] at hstep
  | timeout => simp [Delivery.advance, h] at hstep
  | report succeeded =>
    simp only [Delivery.advance] at hstep
    split_ifs at hstep
    rw [← Option.some.inj hstep]
    exact h
  | callback =>
    simp only [Delivery.advance] at hstep
    unfold Delivery.onDelivery at hstep
    split at hstep
    next => rw [← Option.some.inj hstep]; exact h
    next => rw [← Option.some.inj hstep]; exact h
    next => rw [← Option.some.inj hstep]; exact h
    next => rw [← Option.some.inj hstep]; exact h
    next succeeded _ =>
      rw [← Option.some.inj hstep]
      dsimp only
      split_ifs
      · exact (dispatchLate_same m succeeded).1.trans h
      · exact h
    next => cases hstep

/-- A batch call on its way. -/
structure Call.Honest (n : ℕ) (c : Call) : Prop where
  kind : c.kind = .batch
  length : c.deliveries.length = n
  deliveries : ∀ m ∈ c.deliveries, Dispatcher.Honest m
  done : c.answers.isSome = true → ∀ m ∈ c.deliveries, m.stage = .done

theorem Call.honest_step {n : ℕ} {e : Event} (h : Call.Honest n c) (hstep : c.step e = some c') :
    Call.Honest n c' := by
  cases e with
  | move index mv =>
    unfold Call.step at hstep
    cases hget : c.deliveries[index]? with
    | none => simp [hget] at hstep
    | some m =>
      simp only [hget] at hstep
      split_ifs at hstep
      obtain ⟨m', hadvance, heq⟩ := Option.map_eq_some_iff.mp hstep
      rw [h.kind] at hadvance
      have hm : m ∈ c.deliveries := List.mem_of_getElem? hget
      rw [← heq]
      constructor
      case kind => exact h.kind
      case length => exact List.length_set.trans h.length
      case deliveries =>
        intro x hx
        rcases List.mem_or_eq_of_mem_set hx with hold | rfl
        · exact h.deliveries x hold
        · exact honest_advance (h.deliveries m hm) hadvance
      case done =>
        intro hanswers x hx
        rcases List.mem_or_eq_of_mem_set hx with hold | rfl
        · exact h.done hanswers x hold
        · exact done_advance (h.done hanswers m hm) hadvance
  | ret =>
    simp only [Call.step] at hstep
    split_ifs at hstep with hdone
    rw [← Option.some.inj hstep]
    exact ⟨h.kind, h.length, h.deliveries, fun _ => hdone.2⟩

theorem Call.honest_run {lates : List Bool} {events : List Event}
    (hrun : run Call.step (Call.batch lates) events = some c) : Call.Honest lates.length c := by
  apply run_invariant (fun _ _ _ h hs => honest_step h hs) _ hrun
  refine ⟨rfl, List.length_map .., fun m hm => ?_, fun h => Bool.noConfusion h⟩
  obtain ⟨late, -, rfl⟩ := List.mem_map.mp hm
  exact honest_init late

end Dispatcher

/-- The publication by `publish_batch_and_wait`, read at any time after it has returned. -/
def Publication.ofDispatcher (messages : List Message) (lates : List Bool)
    (hlength : lates.length = messages.length) (events : List Dispatcher.Event)
    (c : Dispatcher.Call) (hrun : run Dispatcher.Call.step (.batch lates) events = some c)
    (hreturned : c.answers.isSome = true) : Publication messages where
  outcomes := c.deliveries.map Dispatcher.Delivery.outcome
  produced := chosen messages fun i => c.deliveries[i]?.any fun m => m.broker ≠ .unsent
  acked := chosen messages fun i => c.deliveries[i]?.any fun m => m.broker.succeeded
  length_outcomes := by
    rw [List.length_map, (Dispatcher.Call.honest_run hrun).length, hlength]
  produced_sublist := chosen_sublist _ _
  acked_of_none i m hm hnone := by
    have hhonest := Dispatcher.Call.honest_run hrun
    apply mem_chosen hm
    rw [List.getElem?_map] at hnone
    obtain ⟨delivery, hget, houtcome⟩ := Option.map_eq_some_iff.mp hnone
    have hmem := List.mem_of_getElem? hget
    rw [hget, Option.any_some]
    rcases (hhonest.deliveries _ hmem).done (hhonest.done hreturned _ hmem) with hne | hacked
    · exact absurd houtcome hne
    · exact hacked

end FluxMeter.Custody
