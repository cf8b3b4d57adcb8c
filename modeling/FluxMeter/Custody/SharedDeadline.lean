import FluxMeter.Custody.Publication
import FluxMeter.Transition.Passes

/-! `publish_batch_and_wait` of the dispatcher as one call: the messages of a batch take their permits
one after the other, and all of them wait for one deadline. -/
namespace FluxMeter.Custody
open Transition

/-- What becomes of a message that the producer has room for. -/
inductive Handling
  | raises
  /-- The time at which `on_delivery` is called, and whether it comes without an error. -/
  | queued (delivery : Option (ℚ × Bool))

/-- What is free: permits, and places in the queue of the producer. -/
structure Room where
  slots : ℕ
  queue : ℕ

/-- No permit is free, or `produce` raises a `BufferError`. -/
def Room.Full (r : Room) : Prop := r.slots = 0 ∨ r.queue = 0

instance (r : Room) : Decidable r.Full := inferInstanceAs (Decidable (_ ∨ _))

/-- The producer as a call finds it. Time counts from the start of its second loop. -/
structure Broker where
  room : Room
  timeoutSeconds : ℚ
  handle : Message → Handling

namespace Broker
variable (b : Broker)

/-- A message that is queued is pending; for another one the outcome is set. -/
abbrev Handed := Except PublishError (Option (ℚ × Bool))

/-- The body of the first loop. A message that is delivered during this loop leaves its room to the
next one. -/
def handOver (room : Room) (m : Message) : Handed × Room :=
  if room.Full then (.error .overloaded, room)
  else
    match b.handle m with
    | .raises => (.error .unavailable, room)
    | .queued delivery =>
      (.ok delivery,
        if delivery.any fun d => d.1 < 0 then room
        else { slots := room.slots - 1, queue := room.queue - 1 })

/-- The delivery does not come before the deadline. -/
def late : Handed → Bool
  | .error _ => false
  | .ok none => true
  | .ok (some (time, _)) => b.timeoutSeconds ≤ time

/-- The body of the second loop, on the clock. Once the deadline is over, no outcome is looked at. -/
def await (now : ℚ) (x : Handed) : Option PublishError × ℚ :=
  if b.timeoutSeconds ≤ now then (some .uncertain, now)
  else
    match x with
    | .error error => (some error, now)
    | .ok none => (some .uncertain, b.timeoutSeconds)
    | .ok (some (time, succeeded)) =>
      if b.timeoutSeconds ≤ time then (some .uncertain, b.timeoutSeconds)
      else (if succeeded then none else some .unavailable, max now time)

/-- `publish_batch_and_wait`. -/
def publishBatchAndWait (messages : List Message) : List (Option PublishError) :=
  (onePass b.await 0 (onePass b.handOver b.room messages).1).1

/-- The outcome of a message that is published after others. -/
def fateAfter (before : List Message) (m : Message) : Option PublishError :=
  (b.await (onePass b.await 0 (onePass b.handOver b.room before).1).2
    (b.handOver (onePass b.handOver b.room before).2 m).1).1

/-- The deadline is over when the messages have been waited for. -/
def Overdue (before : List Message) : Prop :=
  b.timeoutSeconds ≤ 0 ∨ (onePass b.handOver b.room before).1.any b.late = true

/-- The messages leave no room. -/
def Exhausted (before : List Message) : Prop := (onePass b.handOver b.room before).2.Full

instance (before : List Message) : Decidable (b.Overdue before) :=
  inferInstanceAs (Decidable (_ ∨ _))

instance (before : List Message) : Decidable (b.Exhausted before) :=
  inferInstanceAs (Decidable (Room.Full _))

variable {b}

/-- The outcome of a message depends on those before it alone. -/
theorem getElem?_outcomes {messages : List Message} {k : ℕ} {m : Message} (h : messages[k]? = some m) :
    (b.publishBatchAndWait messages)[k]? = some (b.fateAfter (messages.take k) m) := by
  unfold publishBatchAndWait fateAfter
  rw [getElem?_onePass (getElem?_onePass h), onePass_take]

private theorem acked_of_await {now : ℚ} {x : Handed} (h : (b.await now x).1 = none) :
    ∃ time, x = .ok (some (time, true)) := by
  unfold await at h
  split_ifs at h
  split at h
  · cases h
  · cases h
  · rename_i time succeeded
    split_ifs at h with hlate hsucceeded
    exact ⟨time, by rw [hsucceeded]⟩

/-- The call tells that a message was acknowledged only where it was. -/
def publication (b : Broker) (messages : List Message) : Publication messages where
  outcomes := b.publishBatchAndWait messages
  produced := chosen messages fun i =>
    ((onePass b.handOver b.room messages).1[i]?).any fun x => x.toOption.isSome
  acked := chosen messages fun i => ((onePass b.handOver b.room messages).1[i]?).any fun x =>
    x.toOption.any fun delivery => delivery.any Prod.snd
  length_outcomes := by
    unfold publishBatchAndWait
    rw [length_onePass, length_onePass]
  produced_sublist := chosen_sublist messages _
  acked_of_none i m hm hnone := by
    rw [getElem?_outcomes hm] at hnone
    obtain ⟨time, htime⟩ := acked_of_await (Option.some.inj hnone)
    refine mem_chosen hm ?_
    rw [getElem?_onePass hm, htime]
    rfl

/-! ### What a message shares -/

private theorem overdue_await (now : ℚ) (x : Handed) :
    b.timeoutSeconds ≤ (b.await now x).2 ↔ b.timeoutSeconds ≤ now ∨ b.late x = true := by
  unfold await
  by_cases hnow : b.timeoutSeconds ≤ now
  · rw [if_pos hnow]
    exact iff_of_true hnow (Or.inl hnow)
  · rw [if_neg hnow]
    split
    · simp [hnow, late]
    · simp [late]
    · rename_i time succeeded
      by_cases htime : b.timeoutSeconds ≤ time
      · simp [late, htime]
      · simp [late, hnow, htime]

theorem overdue_onePass (now : ℚ) (xs : List Handed) :
    b.timeoutSeconds ≤ (onePass b.await now xs).2 ↔
      b.timeoutSeconds ≤ now ∨ xs.any b.late = true := by
  induction xs generalizing now with
  | nil => simp [onePass]
  | cons x xs ih => rw [onePass, ih, overdue_await, List.any_cons, Bool.or_eq_true, or_assoc]

theorem handOver_full {room : Room} (h : room.Full) (before : List Message) :
    (onePass b.handOver room before).2 = room := by
  induction before with
  | nil => rfl
  | cons m before ih =>
    have hrefused : b.handOver room m = (.error .overloaded, room) := if_pos h
    rw [onePass, hrefused]
    exact ih

theorem await_of_lt {now now' : ℚ} (h : ¬ b.timeoutSeconds ≤ now) (h' : ¬ b.timeoutSeconds ≤ now')
    (x : Handed) : (b.await now x).1 = (b.await now' x).1 := by
  unfold await
  rw [if_neg h, if_neg h']
  split
  · rfl
  · rfl
  · rw [apply_ite Prod.fst, apply_ite Prod.fst]

theorem handOver_free {room room' : Room} (h : ¬ room.Full) (h' : ¬ room'.Full) (m : Message) :
    (b.handOver room m).1 = (b.handOver room' m).1 := by
  unfold handOver
  rw [if_neg h, if_neg h']
  cases b.handle m <;> rfl

/-- Behind a message that is late, every message is in doubt, whatever became of it. -/
theorem fateAfter_overdue {before : List Message} (h : b.Overdue before) (m : Message) :
    b.fateAfter before m = some .uncertain :=
  congrArg Prod.fst (if_pos ((overdue_onePass 0 (onePass b.handOver b.room before).1).mpr h))

theorem fateAfter_exhausted {before : List Message} (h : ¬ b.Overdue before)
    (hroom : b.Exhausted before) (m : Message) : b.fateAfter before m = some .overloaded := by
  have hclock := (overdue_onePass 0 (onePass b.handOver b.room before).1).not.mpr h
  have hrefused : b.handOver (onePass b.handOver b.room before).2 m = (.error .overloaded, _) :=
    if_pos hroom
  unfold fateAfter
  rw [hrefused]
  exact congrArg Prod.fst (if_neg hclock)

theorem fateAfter_free {before : List Message} (h : ¬ b.Overdue before)
    (hroom : ¬ b.Exhausted before) (m : Message) : b.fateAfter before m = b.fateAfter [] m := by
  have hclock := (overdue_onePass 0 (onePass b.handOver b.room before).1).not.mpr h
  have hstart : ¬ b.timeoutSeconds ≤ 0 := fun hle => h (Or.inl hle)
  have hfirst : ¬ b.room.Full := by
    intro hfull
    refine hroom ?_
    unfold Exhausted
    rw [handOver_full hfull]
    exact hfull
  unfold fateAfter
  rw [await_of_lt hclock hstart, handOver_free hroom hfirst]
  rfl

end Broker

end FluxMeter.Custody
