import FluxMeter.Job.ExactlyOnce

/-! Lateness as the router and the window operator decide it. The router calls an event late when
the watermark reaches the end of its window; the window is closed one millisecond before. -/
namespace FluxMeter.Job
open FluxMeter.Model

/-- The end of the window of a timestamp, as `LateEventRouter.isLate` computes it. -/
def windowEnd (timestamp windowMillis : ℤ) : ℤ :=
  wrap64 ((timestamp / windowMillis + 1) * windowMillis)

/-- Flink's window operator without allowed lateness drops an event whose window has its maximum
timestamp at or below the watermark. -/
def TumblingWindows.drops (w : TumblingWindows) (timestamp watermark : ℤ) : Bool :=
  wrap64 (wrap64 (w.start timestamp + w.size) - 1) ≤ watermark

/-- The event is projected to Redis and then sent to the dead letters. -/
def HalfProcessed {ι : Type*} (A : Aggregator) (watermark : ℤ) (i : ι) (e : TokenEvent)
    (s : Pipeline ι) : Prop :=
  (s.process A watermark i e).projected = i :: s.projected ∧
    (s.process A watermark i e).deadLetters = i :: s.deadLetters

/-- The router forwards exactly what the window accepts, and no event is half processed. -/
structure LatenessAgrees (ι : Type*) (A : Aggregator) (timestamp watermark : ℤ) : Prop where
  forwarded : isLate timestamp watermark A.windows.size = false ↔
    A.windowLate timestamp watermark = false
  whole : ∀ (i : ι) (e : TokenEvent) (s : Pipeline ι), e.timestamp = timestamp →
    e.authorizedReplay = false → ¬ HalfProcessed A watermark i e s

/-- The watermark is not the last millisecond of a window that ends at `windowEnd`. Where this end
wraps to the least `long`, only the least and the greatest watermark are safe. -/
def OffLastMillisecond (windowEnd watermark : ℤ) : Prop :=
  if windowEnd = -(2 ^ 63) then watermark = -(2 ^ 63) ∨ watermark = 2 ^ 63 - 1
  else watermark ≠ windowEnd - 1

instance (windowEnd watermark : ℤ) : Decidable (OffLastMillisecond windowEnd watermark) := by
  unfold OffLastMillisecond
  infer_instance

theorem isLong_wrap64 (x : ℤ) : isLong (wrap64 x) := by
  unfold isLong wrap64
  omega

private theorem end_eq_windowEnd (w : TumblingWindows) (timestamp : ℤ) :
    wrap64 (w.start timestamp + w.size) = windowEnd timestamp w.size := by
  rw [← projection_start, wrap64_add, windowEnd, Int.add_mul, Int.one_mul]

private theorem decisions_agree_iff {windowEnd watermark : ℤ} (hend : isLong windowEnd)
    (hwatermark : isLong watermark) :
    ((watermark ≠ -(2 ^ 63) ∧ windowEnd ≤ watermark) ↔ wrap64 (windowEnd - 1) ≤ watermark) ↔
      OffLastMillisecond windowEnd watermark := by
  obtain ⟨hlo, hhi⟩ := hend
  obtain ⟨hwlo, hwhi⟩ := hwatermark
  unfold OffLastMillisecond
  by_cases hleast : windowEnd = -(2 ^ 63)
  · have hwrap : wrap64 (windowEnd - 1) = 2 ^ 63 - 1 := by
      unfold wrap64
      omega
    rw [if_pos hleast, hwrap]
    omega
  · have hwrap : wrap64 (windowEnd - 1) = windowEnd - 1 := by
      unfold wrap64
      omega
    rw [if_neg hleast, hwrap]
    omega

theorem isLate_eq_drops_iff (w : TumblingWindows) {timestamp watermark : ℤ}
    (hwatermark : isLong watermark) :
    (isLate timestamp watermark w.size = false ↔ w.drops timestamp watermark = false) ↔
      OffLastMillisecond (windowEnd timestamp w.size) watermark := by
  have hend : isLong (windowEnd timestamp w.size) := isLong_wrap64 _
  rw [← decisions_agree_iff hend hwatermark]
  unfold isLate TumblingWindows.drops
  rw [end_eq_windowEnd, decide_eq_false_iff_not, decide_eq_false_iff_not, not_iff_not]
  rfl

namespace Pipeline
variable {ι : Type*} {A : Aggregator} {watermark : ℤ} {i : ι} {e : TokenEvent} {s : Pipeline ι}

/-- The event passes the filters, the deduplicator and the router. -/
def reachesStamp (A : Aggregator) (watermark : ℤ) (e : TokenEvent) (s : Pipeline ι) : Bool :=
  !e.malformedEnvelope && !(e.customerId.isNone || e.modelId.isNone) && !isHeartbeat e &&
    (deduplicate s.seen e).isSome &&
    !(!e.authorizedReplay && isLate e.timestamp watermark A.windows.size)

variable (i) in
theorem process_of_reachesStamp (h : reachesStamp A watermark e s = true) :
    ∃ seen, deduplicate s.seen e = some seen ∧
      process A watermark i e s = bill A watermark i e { s with seen := seen } := by
  unfold reachesStamp at h
  simp only [Bool.and_eq_true, Bool.not_eq_true'] at h
  obtain ⟨⟨⟨⟨hsound, hfields⟩, hbeat⟩, hfresh⟩, htimely⟩ := h
  obtain ⟨seen, hseen⟩ := Option.isSome_iff_exists.mp hfresh
  refine ⟨seen, hseen, ?_⟩
  unfold process
  rw [if_neg (by simp [hsound]), if_neg (by simp [hfields]), if_neg (by simp [hbeat]), hseen]
  dsimp only
  rw [if_neg (by simp [htimely])]

variable (i) in
theorem process_of_not_reachesStamp (h : reachesStamp A watermark e s = false) :
    (process A watermark i e s).meters = s.meters ∧
    (process A watermark i e s).projectionKeys = s.projectionKeys ∧
    (process A watermark i e s).projected = s.projected ∧
    (process A watermark i e s).windows = s.windows ∧
    (process A watermark i e s).counted = s.counted := by
  unfold process
  by_cases hbad : e.malformedEnvelope = true
  · rw [if_pos hbad]
    exact ⟨rfl, rfl, rfl, rfl, rfl⟩
  by_cases hfields : (e.customerId.isNone || e.modelId.isNone) = true
  · rw [if_neg hbad, if_pos hfields]
    exact ⟨rfl, rfl, rfl, rfl, rfl⟩
  by_cases hbeat : isHeartbeat e = true
  · rw [if_neg hbad, if_neg hfields, if_pos hbeat]
    exact ⟨rfl, rfl, rfl, rfl, rfl⟩
  rw [if_neg hbad, if_neg hfields, if_neg hbeat]
  cases hseen : deduplicate s.seen e with
  | none => exact ⟨rfl, rfl, rfl, rfl, rfl⟩
  | some seen =>
    have hlate : (!e.authorizedReplay && isLate e.timestamp watermark A.windows.size) = true := by
      unfold reachesStamp at h
      rw [Bool.not_eq_true] at hbad hfields hbeat
      rw [hbad, hfields, hbeat, hseen] at h
      simpa using h
    dsimp only
    rw [if_pos hlate]
    exact ⟨rfl, rfl, rfl, rfl, rfl⟩

theorem timely_of_reachesStamp (hreplay : e.authorizedReplay = false)
    (h : reachesStamp A watermark e s = true) :
    isLate e.timestamp watermark A.windows.size = false := by
  unfold reachesStamp at h
  simp only [Bool.and_eq_true, Bool.not_eq_true', hreplay] at h
  simpa using h.2

theorem bill_deadLetters (htimely : A.windowLate e.timestamp watermark = false) :
    (bill A watermark i e s).deadLetters = s.deadLetters := by
  unfold bill addToWindow project
  dsimp only
  rw [if_neg (by simp [htimely])]
  dsimp only
  split_ifs <;> rfl

end Pipeline

/-- The router and the window agree, and no event is projected and then dropped, exactly when the
watermark is not on the last millisecond of the event's window. -/
theorem latenessAgrees_iff (ι : Type*) (A : Aggregator) {timestamp watermark : ℤ}
    (hflink : A.windowLate = A.windows.drops) (hwatermark : isLong watermark) :
    LatenessAgrees ι A timestamp watermark ↔
      OffLastMillisecond (windowEnd timestamp A.windows.size) watermark := by
  rw [← isLate_eq_drops_iff A.windows hwatermark]
  constructor
  case mp =>
    intro h
    rw [← hflink]
    exact h.forwarded
  case mpr =>
    intro h
    rw [← hflink] at h
    refine ⟨h, fun i e s htime hreplay hhalf => ?_⟩
    obtain ⟨hprojected, hdead⟩ := hhalf
    cases hreach : Pipeline.reachesStamp A watermark e s with
    | false =>
      rw [(Pipeline.process_of_not_reachesStamp i hreach).2.2.1] at hprojected
      exact List.cons_ne_self _ _ hprojected.symm
    | true =>
      have hforwarded := Pipeline.timely_of_reachesStamp hreplay hreach
      rw [htime] at hforwarded
      obtain ⟨seen, -, hbilled⟩ := Pipeline.process_of_reachesStamp i hreach
      rw [hbilled, Pipeline.bill_deadLetters (htime ▸ h.mp hforwarded)] at hdead
      exact List.cons_ne_self _ _ hdead.symm

/-- The job of ten-second windows under Flink's late check. -/
def flinkJob : Aggregator := { tenSecondJob with windowLate := tenSeconds.drops }

theorem latenessAgrees_midWindow : LatenessAgrees ℕ flinkJob 15000 12000 :=
  (latenessAgrees_iff ℕ flinkJob rfl (by decide)).mpr (by decide)

/-- At the watermark 19999 the router forwards an event of the window that ends at 20000; it is
projected, and then the window drops it. -/
theorem half_processed_on_last_millisecond :
    isLate 15000 19999 10000 = false ∧ tenSeconds.drops 15000 19999 = true ∧
    HalfProcessed flinkJob 19999 0
      { eventId := some "e1", customerId := some "acme", modelId := some "gpt", timestamp := 15000 }
      ({} : Pipeline ℕ) ∧
    ¬ LatenessAgrees ℕ flinkJob 15000 19999 := by
  have hlate : isLate 15000 19999 10000 = false := by decide
  have hdrops : tenSeconds.drops 15000 19999 = true := by decide
  refine ⟨hlate, hdrops, ⟨by decide +kernel, by decide +kernel⟩, fun h => ?_⟩
  have haccepted : tenSeconds.drops 15000 19999 = false := h.forwarded.mp hlate
  rw [hdrops] at haccepted
  exact Bool.noConfusion haccepted

end FluxMeter.Job
