import FluxMeter.Job.LateEventSink
import FluxMeter.Job.Lateness

/-! Late events on their way through the dead letters and back: `LateEventSink` writes them,
`dlq_replay` copies them to the billing topic, and the job meets the copies with a deduplicator and
a projection guard that expire. -/
namespace FluxMeter.Job
open FluxMeter.Model

/-- `EVENT_SAFETY_DEDUP_TTL_SECONDS` and `EVENT_PROJECTION_IDEMPOTENCY_TTL_SECONDS`, in
milliseconds. -/
structure Expiry where
  dedupMillis : ℤ := 600000
  projectionMillis : ℤ := 600000

/-- The job with the mapper of its source and of its late sink. -/
structure Deployment (T : JsonText) where
  job : Aggregator
  mapper : ObjectMapper T
  expiry : Expiry := {}

/-- The pipeline, the times at which its deduplicator and its projection guards were set, and the
records of the late sink. Messages are known by their event ids. -/
structure Stream (T : JsonText) where
  job : Pipeline (Option String) := {}
  seenAt : String → ℤ := fun _ => 0
  guardAt : String → ℤ := fun _ => 0
  dlq : List T.Bytes := []

/-- A message on the billing topic: a producer's, or a copy that `dlq_replay` made of a record. A
run of it that fails between the copy and its commit makes another copy. -/
inductive Message (T : JsonText)
  | published (bytes : T.Bytes)
  | copied (offset : ℕ)

/-- A message that the job reads: its processing time, the watermark there, and the clock of the
late sink. -/
structure Incoming (T : JsonText) where
  message : Message T
  now : ℤ
  watermark : ℤ
  sinkClock : ℤ
  sinkClock_long : isLong sinkClock

section Job
variable {T : JsonText} (J : Deployment T)

def decode (bytes : T.Bytes) (clock : ℤ) : TokenEvent :=
  deserialize T J.mapper.toDatabind bytes clock

/-- The event of a message; there is no copy of a record that is not there. -/
def eventOf (s : Stream T) (a : Incoming T) : Option TokenEvent :=
  match a.message with
  | .published bytes => some (decode J bytes a.now)
  | .copied offset => s.dlq[offset]?.map fun bytes => decode J bytes a.now

/-- The pipeline without the entries that have expired. -/
def expire (s : Stream T) (now : ℤ) : Pipeline (Option String) :=
  { s.job with
    seen := s.job.seen.filter fun id => now < s.seenAt id + J.expiry.dedupMillis
    projectionKeys := s.job.projectionKeys.filter fun key =>
      now < s.guardAt key + J.expiry.projectionMillis }

/-- The late sink is given the event that a step of the pipeline sent to the dead letters. -/
def reachesLateSink (before after : Pipeline (Option String)) (e : TokenEvent) : Bool :=
  !e.malformedEnvelope && before.deadLetters.length < after.deadLetters.length

def receive (s : Stream T) (a : Incoming T) (e : TokenEvent) : Stream T :=
  let before := expire J s a.now
  let after := before.process J.job a.watermark e.eventId e
  { job := after
    seenAt := fun id => if id ∈ after.seen ∧ id ∉ before.seen then a.now else s.seenAt id
    guardAt := fun key =>
      if key ∈ after.projectionKeys ∧ key ∉ before.projectionKeys then a.now else s.guardAt key
    dlq := if reachesLateSink before after e then s.dlq ++ [lateRecord J.mapper e a.sinkClock]
      else s.dlq }

def arrive (s : Stream T) (a : Incoming T) : Stream T :=
  match eventOf J s a with
  | some e => receive J s a e
  | none => s

def arriveAll (s : Stream T) (arrivals : List (Incoming T)) : Stream T := arrivals.foldl (arrive J) s

/-! ### The property and its condition -/

/-- The event was accepted by one window and projected once, and it was late only once. -/
structure ReplayedOnce (id : String) (s : Stream T) : Prop where
  windowed : s.job.counted.count (some id) = 1
  projected : s.job.projected.count (some id) = 1
  late : s.job.deadLetters.count (some id) = 1

/-- A message of the event id arrives when the deduplicator has forgotten the id. -/
def Passes (id : String) (s : Stream T) (a : Incoming T) (e : TokenEvent) : Prop :=
  eventOf J s a = some e ∧ e.eventId = some id ∧ id ∉ (expire J s a.now).seen

/-- A copy that passes finds its window open and, if the event was projected before, the guard of
its projection in force. -/
def InTimeAt (id : String) (s : Stream T) (a : Incoming T) : Prop :=
  ∀ e, Passes J id s a e → J.job.windowLate e.timestamp a.watermark = false ∧
    (some id ∈ s.job.projected →
      projectionKey J.job.sha256 (some id) ∈ (expire J s a.now).projectionKeys)

def InTime (id : String) : Stream T → List (Incoming T) → Prop
  | _, [] => True
  | s, a :: arrivals => InTimeAt J id s a ∧ InTime id (arrive J s a) arrivals

def SomePasses (id : String) : Stream T → List (Incoming T) → Prop
  | _, [] => False
  | s, a :: arrivals => (∃ e, Passes J id s a e) ∨ SomePasses id (arrive J s a) arrivals

/-- The job has not met the event id. -/
structure NoTrace (id : String) (s : Stream T) : Prop where
  seen : id ∉ s.job.seen
  guard : projectionKey J.job.sha256 (some id) ∉ s.job.projectionKeys
  windows : ∀ k, id ∉ (s.job.windows k).seenEventIds
  projected : some id ∉ s.job.projected
  counted : some id ∉ s.job.counted
  deadLetters : some id ∉ s.job.deadLetters
  records : ∀ bytes ∈ s.dlq, ∀ clock, (decode J bytes clock).eventId ≠ some id

end Job

/-! ### What one event does to the traces of an event id -/

namespace Pipeline
variable {A : Aggregator} {watermark before : ℤ} {e : TokenEvent} {id key : String}
  {i : Option String} {s t u : Pipeline (Option String)}

/-- The traces of the event id are the same in both states. -/
structure Spares (key id : String) (s t : Pipeline (Option String)) : Prop where
  seen : id ∈ t.seen ↔ id ∈ s.seen
  guard : key ∈ t.projectionKeys ↔ key ∈ s.projectionKeys
  windows : ∀ k, id ∈ (t.windows k).seenEventIds ↔ id ∈ (s.windows k).seenEventIds
  projected : t.projected.count (some id) = s.projected.count (some id)
  counted : t.counted.count (some id) = s.counted.count (some id)
  deadLetters : t.deadLetters.count (some id) = s.deadLetters.count (some id)

theorem Spares.refl (key id : String) (s : Pipeline (Option String)) : Spares key id s s :=
  ⟨Iff.rfl, Iff.rfl, fun _ => Iff.rfl, rfl, rfl, rfl⟩

theorem Spares.trans (h : Spares key id s t) (h' : Spares key id t u) : Spares key id s u where
  seen := h'.seen.trans h.seen
  guard := h'.guard.trans h.guard
  windows := fun k => (h'.windows k).trans (h.windows k)
  projected := h'.projected.trans h.projected
  counted := h'.counted.trans h.counted
  deadLetters := h'.deadLetters.trans h.deadLetters

private theorem spares_project (hkey : projectionKey A.sha256 e.eventId ≠ key) (hi : i ≠ some id) :
    Spares key id s (project A i e s) := by
  unfold project
  dsimp only
  split_ifs
  · exact .refl key id s
  · refine ⟨Iff.rfl, ?_, fun _ => Iff.rfl, List.count_cons_of_ne hi, rfl, rfl⟩
    rw [List.mem_cons]
    exact or_iff_right hkey.symm

private theorem spares_addToWindow (hid : e.eventId ≠ some id) (hi : i ≠ some id) :
    Spares key id s (addToWindow A watermark i e before s) := by
  unfold addToWindow
  split_ifs
  · exact ⟨Iff.rfl, Iff.rfl, fun _ => Iff.rfl, rfl, rfl, List.count_cons_of_ne hi⟩
  · refine ⟨Iff.rfl, Iff.rfl, fun k => ?_, rfl, ?_, rfl⟩
    · by_cases hk : k = windowOf A e
      · subst hk
        dsimp only
        rw [Function.update_self, UsageAggregate.seenEventIds_addEvent, or_iff_right hid]
      · dsimp only
        rw [Function.update_of_ne hk]
    · dsimp only
      split_ifs
      · rfl
      · exact List.count_cons_of_ne hi

theorem spares_bill (hkey : projectionKey A.sha256 e.eventId ≠ key) (hid : e.eventId ≠ some id)
    (hi : i ≠ some id) : Spares key id s (bill A watermark i e s) := by
  unfold bill
  refine .trans ?_ ((spares_project hkey hi).trans (spares_addToWindow hid hi))
  exact ⟨Iff.rfl, Iff.rfl, fun _ => Iff.rfl, rfl, rfl, rfl⟩

variable (A watermark i e s) in
/-- Everything that one event can do to the pipeline. -/
theorem process_shapes :
    (e.malformedEnvelope = true ∧
      process A watermark i e s = { s with deadLetters := i :: s.deadLetters }) ∨
    process A watermark i e s = s ∨
    (isHeartbeat e = true ∧
      process A watermark i e s = { s with probes := e.eventId :: s.probes }) ∨
    ∃ seen, deduplicate s.seen e = some seen ∧ e.malformedEnvelope = false ∧
      (process A watermark i e s = { s with seen := seen, deadLetters := i :: s.deadLetters } ∨
        process A watermark i e s = bill A watermark i e { s with seen := seen }) := by
  unfold process
  by_cases hbad : e.malformedEnvelope = true
  · rw [if_pos hbad]
    exact Or.inl ⟨hbad, rfl⟩
  right
  by_cases hfields : (e.customerId.isNone || e.modelId.isNone) = true
  · rw [if_neg hbad, if_pos hfields]
    exact Or.inl rfl
  by_cases hbeat : isHeartbeat e = true
  · rw [if_neg hbad, if_neg hfields, if_pos hbeat]
    exact Or.inr (Or.inl ⟨hbeat, rfl⟩)
  rw [if_neg hbad, if_neg hfields, if_neg hbeat]
  cases hseen : deduplicate s.seen e with
  | none => exact Or.inl rfl
  | some seen =>
    refine Or.inr (Or.inr ⟨seen, rfl, Bool.eq_false_iff.mpr hbad, ?_⟩)
    dsimp only
    split_ifs
    · exact Or.inl rfl
    · exact Or.inr rfl

theorem mem_of_deduplicate {seen : List String} (hid : e.eventId ≠ some id)
    (h : deduplicate s.seen e = some seen) : id ∈ seen ↔ id ∈ s.seen := by
  unfold deduplicate at h
  split at h
  · rename_i other hother
    split_ifs at h
    rw [← Option.some.inj h, List.mem_cons]
    exact or_iff_right fun heq => hid (heq ▸ hother)
  · rw [Option.some.inj h]

theorem spares_process
    (hkey : e.malformedEnvelope = false → projectionKey A.sha256 e.eventId ≠ key)
    (hid : e.eventId ≠ some id) (hi : i ≠ some id) :
    Spares key id s (process A watermark i e s) := by
  rcases process_shapes A watermark e i s with
    ⟨-, heq⟩ | heq | ⟨-, heq⟩ | ⟨seen, hseen, hsound, heq | heq⟩
  · rw [heq]
    exact ⟨Iff.rfl, Iff.rfl, fun _ => Iff.rfl, rfl, rfl, List.count_cons_of_ne hi⟩
  · rw [heq]
    exact .refl key id s
  · rw [heq]
    exact ⟨Iff.rfl, Iff.rfl, fun _ => Iff.rfl, rfl, rfl, rfl⟩
  · rw [heq]
    exact ⟨mem_of_deduplicate hid hseen, Iff.rfl, fun _ => Iff.rfl, rfl, rfl,
      List.count_cons_of_ne hi⟩
  · have hstart : Spares key id s { s with seen := seen } :=
      ⟨mem_of_deduplicate hid hseen, Iff.rfl, fun _ => Iff.rfl, rfl, rfl, rfl⟩
    rw [heq]
    exact hstart.trans (spares_bill (hkey hsound) hid hi)

theorem counted_bill (hid : e.eventId = some id)
    (htimely : A.windowLate e.timestamp watermark = false) :
    (bill A watermark i e s).counted =
      if id ∈ (s.windows (windowOf A e)).seenEventIds then s.counted else i :: s.counted := by
  unfold bill addToWindow isDuplicate
  dsimp only
  rw [if_neg (by rw [htimely]; decide), hid]
  dsimp only
  rw [project_windows, project_counted]
  simp only [decide_eq_true_eq]

theorem mem_windows_bill {k : String × ℤ} (hid : e.eventId = some id)
    (htimely : A.windowLate e.timestamp watermark = false) :
    id ∈ ((bill A watermark i e s).windows k).seenEventIds ↔
      k = windowOf A e ∨ id ∈ (s.windows k).seenEventIds := by
  unfold bill addToWindow
  dsimp only
  rw [if_neg (by rw [htimely]; decide)]
  dsimp only
  rw [project_windows]
  by_cases hk : k = windowOf A e
  · subst hk
    rw [Function.update_self, UsageAggregate.seenEventIds_addEvent]
    exact iff_of_true (Or.inl hid) (Or.inl rfl)
  · rw [Function.update_of_ne hk, or_iff_right hk]

/-- A billed event that its window drops goes to the dead letters. -/
theorem bill_of_late (hlate : A.windowLate e.timestamp watermark = true) :
    (bill A watermark i e s).windows = s.windows ∧
    (bill A watermark i e s).counted = s.counted ∧
    (bill A watermark i e s).deadLetters = i :: s.deadLetters := by
  unfold bill addToWindow
  dsimp only
  rw [if_pos hlate]
  refine ⟨project_windows, project_counted, ?_⟩
  unfold project
  dsimp only
  split_ifs <;> rfl

private theorem suffix_project : s.projected <:+ (project A i e s).projected ∧
    s.deadLetters <:+ (project A i e s).deadLetters := by
  unfold project
  dsimp only
  split_ifs
  · exact ⟨List.suffix_rfl, List.suffix_rfl⟩
  · exact ⟨List.suffix_cons _ _, List.suffix_rfl⟩

private theorem suffix_bill : s.projected <:+ (bill A watermark i e s).projected ∧
    s.deadLetters <:+ (bill A watermark i e s).deadLetters := by
  let advanced := (s.meters e.getAggregationKey).advance e.timestamp e.getTotalTokens
  let stamped := { s with meters := Function.update s.meters e.getAggregationKey advanced }
  obtain ⟨hprojected, hdead⟩ := suffix_project (A := A) (i := i) (e := e) (s := stamped)
  unfold bill
  rw [addToWindow_keys.2.1]
  refine ⟨hprojected, ?_⟩
  unfold addToWindow
  split_ifs
  · exact hdead.trans (List.suffix_cons _ _)
  · exact hdead

theorem suffix_process : s.projected <:+ (process A watermark i e s).projected ∧
    s.deadLetters <:+ (process A watermark i e s).deadLetters := by
  rcases process_shapes A watermark e i s with
    ⟨-, heq⟩ | heq | ⟨-, heq⟩ | ⟨seen, -, -, heq | heq⟩
  · rw [heq]
    exact ⟨List.suffix_rfl, List.suffix_cons _ _⟩
  · rw [heq]
    exact ⟨List.suffix_rfl, List.suffix_rfl⟩
  · rw [heq]
    exact ⟨List.suffix_rfl, List.suffix_rfl⟩
  · rw [heq]
    exact ⟨List.suffix_rfl, List.suffix_cons _ _⟩
  · rw [heq]
    exact suffix_bill (s := { s with seen := seen })

/-- A usage event with the event id that passes the filters. -/
structure Usage (id : String) (e : TokenEvent) : Prop where
  sound : e.malformedEnvelope = false
  fields : (e.customerId.isNone || e.modelId.isNone) = false
  usage : isHeartbeat e = false
  eventId : e.eventId = some id

theorem process_of_seen (h : Usage id e) (hseen : id ∈ s.seen) :
    process A watermark i e s = s := by
  rcases process_cases (A := A) watermark (i := i) (s := s) h.sound h.fields h.usage h.eventId with
    ⟨-, heq⟩ | ⟨hnot, -⟩ | ⟨hnot, -⟩
  · exact heq
  · exact absurd hseen hnot
  · exact absurd hseen hnot

theorem process_of_replay (h : Usage id e) (hreplay : e.authorizedReplay = true)
    (hseen : id ∉ s.seen) :
    process A watermark i e s = bill A watermark i e { s with seen := id :: s.seen } := by
  have hdeduplicate : deduplicate s.seen e = some (id :: s.seen) := by
    simp [deduplicate, h.eventId, hseen]
  have hreach : reachesStamp A watermark e s = true := by
    unfold reachesStamp
    rw [h.sound, h.fields, h.usage, hdeduplicate, hreplay]
    rfl
  obtain ⟨seen, hsome, heq⟩ := process_of_reachesStamp i hreach
  rw [hdeduplicate] at hsome
  rw [heq, Option.some.inj hsome]

/-- The traces of an event id that was late once: how often it was projected and counted. The
copies of its event are added to the window `w`. -/
structure Traces (key id : String) (w : String × ℤ) (p c : ℕ) (s : Pipeline (Option String)) :
    Prop where
  projectedOnce : p ≤ 1
  countedOnce : c ≤ 1
  projected : s.projected.count (some id) = p
  counted : s.counted.count (some id) = c
  deadLetters : s.deadLetters.count (some id) = 1
  guard : p = 0 → key ∉ s.projectionKeys
  windows : ∀ k, id ∈ (s.windows k).seenEventIds ↔ c = 1 ∧ k = w

variable {w : String × ℤ} {p c : ℕ}

theorem Traces.spares (h : Traces key id w p c s) (hst : Spares key id s t) :
    Traces key id w p c t where
  projectedOnce := h.projectedOnce
  countedOnce := h.countedOnce
  projected := hst.projected.trans h.projected
  counted := hst.counted.trans h.counted
  deadLetters := hst.deadLetters.trans h.deadLetters
  guard := fun hp hkey => h.guard hp (hst.guard.mp hkey)
  windows := fun k => (hst.windows k).trans (h.windows k)

theorem Traces.bill (h : Traces (projectionKey A.sha256 (some id)) id (windowOf A e) p c s)
    (hid : e.eventId = some id) (htimely : A.windowLate e.timestamp watermark = false)
    (hguard : some id ∈ s.projected → projectionKey A.sha256 (some id) ∈ s.projectionKeys) :
    Traces (projectionKey A.sha256 (some id)) id (windowOf A e) 1 1
      (bill A watermark e.eventId e s) where
  projectedOnce := le_rfl
  countedOnce := le_rfl
  projected := by
    have hcount := h.projected
    rcases bill_projected (A := A) watermark (i := e.eventId) (e := e) (s := s) with
      ⟨hkey, -, hprojected⟩ | ⟨hkey, -, hprojected⟩
    · rw [hid] at hkey
      have hone : p ≠ 0 := fun hzero => h.guard hzero hkey
      have hp := h.projectedOnce
      rw [hprojected]
      omega
    · rw [hid] at hkey
      have hnone : s.projected.count (some id) = 0 := by
        rw [List.count_eq_zero]
        exact fun hmem => hkey (hguard hmem)
      rw [hprojected, hid, List.count_cons_self]
      omega
  counted := by
    have hcount := h.counted
    have hc := h.countedOnce
    have hwindow := h.windows (windowOf A e)
    rw [counted_bill hid htimely]
    split_ifs with hin
    · have hone := (hwindow.mp hin).1
      omega
    · have hzero : c ≠ 1 := fun hone => hin (hwindow.mpr ⟨hone, rfl⟩)
      rw [hid, List.count_cons_self]
      omega
  deadLetters := by
    rw [bill_deadLetters htimely]
    exact h.deadLetters
  guard := fun hzero => absurd hzero one_ne_zero
  windows := by
    intro k
    rw [mem_windows_bill hid htimely, h.windows]
    constructor
    · rintro (hk | ⟨-, hk⟩)
      · exact ⟨rfl, hk⟩
      · exact ⟨rfl, hk⟩
    · exact fun hk => Or.inl hk.2

end Pipeline

/-! ### Arrivals -/

section Arrivals
variable {T : JsonText} {J : Deployment T} {id : String} {copy e : TokenEvent} {s : Stream T}
  {a : Incoming T} {p c : ℕ}

/-- The stream has the traces of an event id that was late once, and every record of the id is
read as the same copy. -/
structure Held (J : Deployment T) (id : String) (copy : TokenEvent) (p c : ℕ) (s : Stream T) :
    Prop where
  traces : Pipeline.Traces (projectionKey J.job.sha256 (some id)) id
    (Pipeline.windowOf J.job copy) p c s.job
  records : ∀ bytes ∈ s.dlq, ∀ clock, (decode J bytes clock).eventId = some id →
    decode J bytes clock = copy

theorem traces_expire {key : String} {w : String × ℤ} (now : ℤ)
    (h : Pipeline.Traces key id w p c s.job) : Pipeline.Traces key id w p c (expire J s now) where
  projectedOnce := h.projectedOnce
  countedOnce := h.countedOnce
  projected := h.projected
  counted := h.counted
  deadLetters := h.deadLetters
  guard := fun hp hkey => h.guard hp (List.mem_of_mem_filter hkey)
  windows := h.windows

theorem eventOf_eq_decode (h : eventOf J s a = some e) :
    ∃ bytes, e = decode J bytes a.now ∧
      (a.message = .published bytes ∨ bytes ∈ s.dlq) := by
  unfold eventOf at h
  split at h
  · rename_i bytes hmessage
    exact ⟨bytes, (Option.some.inj h).symm, Or.inl hmessage⟩
  · obtain ⟨bytes, hbytes, rfl⟩ := Option.map_eq_some_iff.mp h
    exact ⟨bytes, rfl, Or.inr (List.mem_of_getElem? hbytes)⟩

theorem identified_of_eventOf (h : eventOf J s a = some e) (hsound : e.malformedEnvelope = false) :
    Identified e := by
  obtain ⟨bytes, rfl, -⟩ := eventOf_eq_decode h
  exact deserialize_identified hsound

theorem dlq_receive_of_eq
    (h : ((expire J s a.now).process J.job a.watermark e.eventId e).deadLetters =
      s.job.deadLetters) : (receive J s a e).dlq = s.dlq := by
  have hsink : reachesLateSink (expire J s a.now)
      ((expire J s a.now).process J.job a.watermark e.eventId e) e = false := by
    unfold reachesLateSink
    rw [h]
    simp [expire]
  unfold receive
  dsimp only
  rw [hsink]
  rfl

/-- What is in the dead letters after an event was there before, or is its record. -/
theorem mem_dlq_receive {bytes : T.Bytes} (h : bytes ∈ (receive J s a e).dlq) :
    bytes ∈ s.dlq ∨
      (e.malformedEnvelope = false ∧ bytes = lateRecord J.mapper e a.sinkClock) := by
  unfold receive at h
  dsimp only at h
  split_ifs at h with hsink
  · rcases List.mem_append.mp h with h | h
    · exact Or.inl h
    · unfold reachesLateSink at hsink
      rw [Bool.and_eq_true, Bool.not_eq_true'] at hsink
      exact Or.inr ⟨hsink.1, List.mem_singleton.mp h⟩
  · exact Or.inl h

/-- Another id in the event has another digest. -/
def DigestApart (J : Deployment T) (id : String) (e : TokenEvent) : Prop :=
  ∀ other, e.eventId = some other → J.job.sha256 other = J.job.sha256 id → other = id

theorem held_receive_other (hdigest : DigestApart J id e) (h : Held J id copy p c s)
    (he : eventOf J s a = some e) (hid : e.eventId ≠ some id) :
    Held J id copy p c (receive J s a e) where
  traces := by
    refine (traces_expire a.now h.traces).spares (Pipeline.spares_process ?_ hid hid)
    intro hsound heq
    have hidentified := (identified_of_eventOf he hsound).eventId
    cases hother : e.eventId with
    | none =>
      rw [hother] at hidentified
      cases hidentified
    | some other =>
      have htext := hdigest other hother
      rw [hother] at heq hid
      exact hid (congrArg some (htext (String.append_right_inj _ |>.mp heq)))
  records := by
    intro bytes hbytes clock hrecord
    rcases mem_dlq_receive hbytes with hold | ⟨hsound, rfl⟩
    · exact h.records bytes hold clock hrecord
    · have hdecoded : decode J (lateRecord J.mapper e a.sinkClock) clock =
          replayed e a.sinkClock :=
        deserialize_lateRecord clock (identified_of_eventOf he hsound) a.sinkClock_long
      rw [hdecoded] at hrecord
      exact absurd hrecord hid

theorem held_receive_seen (hcopy : Pipeline.Usage id copy) (h : Held J id copy p c s)
    (hseen : id ∈ (expire J s a.now).seen) : Held J id copy p c (receive J s a copy) := by
  have hsame : (expire J s a.now).process J.job a.watermark copy.eventId copy =
      expire J s a.now := Pipeline.process_of_seen hcopy hseen
  refine ⟨?_, ?_⟩
  · change Pipeline.Traces _ _ _ _ _ ((expire J s a.now).process J.job a.watermark _ copy)
    rw [hsame]
    exact traces_expire a.now h.traces
  · rw [dlq_receive_of_eq (by rw [hsame]; rfl)]
    exact h.records

theorem process_pass (hcopy : Pipeline.Usage id copy) (hreplay : copy.authorizedReplay = true)
    (hpass : id ∉ (expire J s a.now).seen) :
    (expire J s a.now).process J.job a.watermark copy.eventId copy =
      Pipeline.bill J.job a.watermark copy.eventId copy
        { expire J s a.now with seen := id :: (expire J s a.now).seen } :=
  Pipeline.process_of_replay hcopy hreplay hpass

theorem held_receive_pass (hcopy : Pipeline.Usage id copy) (hreplay : copy.authorizedReplay = true)
    (h : Held J id copy p c s) (hpass : id ∉ (expire J s a.now).seen)
    (htimely : J.job.windowLate copy.timestamp a.watermark = false)
    (hguard : some id ∈ s.job.projected →
      projectionKey J.job.sha256 (some id) ∈ (expire J s a.now).projectionKeys) :
    Held J id copy 1 1 (receive J s a copy) := by
  have hprocess := process_pass (J := J) (a := a) hcopy hreplay hpass
  have htraces : Pipeline.Traces (projectionKey J.job.sha256 (some id)) id
      (Pipeline.windowOf J.job copy) p c
      { expire J s a.now with seen := id :: (expire J s a.now).seen } := by
    obtain ⟨hp, hc, hprojected, hcounted, hdead, hkey, hwindows⟩ := traces_expire a.now h.traces
    exact ⟨hp, hc, hprojected, hcounted, hdead, hkey, hwindows⟩
  refine ⟨?_, ?_⟩
  · change Pipeline.Traces _ _ _ _ _ ((expire J s a.now).process J.job a.watermark _ copy)
    rw [hprocess]
    exact htraces.bill hcopy.eventId htimely hguard
  · rw [dlq_receive_of_eq (by rw [hprocess, Pipeline.bill_deadLetters htimely]; rfl)]
    exact h.records

theorem deadLetters_receive_late (hcopy : Pipeline.Usage id copy)
    (hreplay : copy.authorizedReplay = true) (h : Held J id copy p c s)
    (hpass : id ∉ (expire J s a.now).seen)
    (hlate : J.job.windowLate copy.timestamp a.watermark = true) :
    (receive J s a copy).job.deadLetters.count (some id) = 2 := by
  change ((expire J s a.now).process J.job a.watermark _ copy).deadLetters.count _ = 2
  rw [process_pass hcopy hreplay hpass, (Pipeline.bill_of_late hlate).2.2, hcopy.eventId,
    List.count_cons_self]
  exact congrArg (· + 1) h.traces.deadLetters

theorem projected_receive_unguarded (hcopy : Pipeline.Usage id copy)
    (hreplay : copy.authorizedReplay = true) (hpass : id ∉ (expire J s a.now).seen)
    (hprojected : some id ∈ s.job.projected)
    (hkey : projectionKey J.job.sha256 (some id) ∉ (expire J s a.now).projectionKeys) :
    2 ≤ (receive J s a copy).job.projected.count (some id) := by
  change 2 ≤ ((expire J s a.now).process J.job a.watermark _ copy).projected.count _
  rw [process_pass hcopy hreplay hpass]
  have hpos : 0 < s.job.projected.count (some id) := List.count_pos_iff.mpr hprojected
  rcases Pipeline.bill_projected (A := J.job) a.watermark (i := copy.eventId) (e := copy)
    (s := { expire J s a.now with seen := id :: (expire J s a.now).seen }) with
    ⟨hin, -⟩ | ⟨-, -, heq⟩
  · rw [hcopy.eventId] at hin
    exact absurd hin hkey
  · rw [heq, hcopy.eventId, List.count_cons_self]
    exact Nat.succ_le_succ hpos

private theorem suffix_arrive (J : Deployment T) (s : Stream T) (a : Incoming T) :
    s.job.projected <:+ (arrive J s a).job.projected ∧
    s.job.deadLetters <:+ (arrive J s a).job.deadLetters := by
  unfold arrive
  split
  · exact Pipeline.suffix_process (s := expire J s a.now)
  · exact ⟨List.suffix_rfl, List.suffix_rfl⟩

theorem suffix_arriveAll (J : Deployment T) (s : Stream T) (arrivals : List (Incoming T)) :
    s.job.projected <:+ (arriveAll J s arrivals).job.projected ∧
    s.job.deadLetters <:+ (arriveAll J s arrivals).job.deadLetters := by
  induction arrivals generalizing s with
  | nil => exact ⟨List.suffix_rfl, List.suffix_rfl⟩
  | cons a arrivals ih =>
    obtain ⟨hprojected, hdead⟩ := suffix_arrive J s a
    exact ⟨hprojected.trans (ih (arrive J s a)).1, hdead.trans (ih (arrive J s a)).2⟩

/-! ### Runs of arrivals -/

/-- Only copies of records bring the event id back. -/
def OnlyCopies (J : Deployment T) (id : String) (arrivals : List (Incoming T)) : Prop :=
  ∀ a ∈ arrivals, ∀ bytes, a.message = .published bytes →
    (decode J bytes a.now).eventId ≠ some id

theorem eq_copy_of_eventOf (h : Held J id copy p c s) (he : eventOf J s a = some e)
    (hid : e.eventId = some id)
    (honly : ∀ bytes, a.message = .published bytes → (decode J bytes a.now).eventId ≠ some id) :
    e = copy := by
  obtain ⟨bytes, rfl, hsource | hrecord⟩ := eventOf_eq_decode he
  · exact absurd hid (honly bytes hsource)
  · exact h.records bytes hrecord a.now hid

/-- One arrival in time: a copy that passes leaves the event billed, anything else leaves it as it
is. -/
theorem held_arrive (hdigest : ∀ e, eventOf J s a = some e → DigestApart J id e)
    (hcopy : Pipeline.Usage id copy) (hreplay : copy.authorizedReplay = true)
    (h : Held J id copy p c s)
    (honly : ∀ bytes, a.message = .published bytes → (decode J bytes a.now).eventId ≠ some id)
    (hintime : InTimeAt J id s a) :
    ((∃ e, Passes J id s a e) ∧ Held J id copy 1 1 (arrive J s a)) ∨
      ((¬ ∃ e, Passes J id s a e) ∧ Held J id copy p c (arrive J s a)) := by
  unfold arrive
  cases he : eventOf J s a with
  | none =>
    refine Or.inr ⟨fun ⟨e, hpass⟩ => ?_, h⟩
    rw [hpass.1] at he
    cases he
  | some e =>
    dsimp only
    by_cases hid : e.eventId = some id
    · obtain rfl := eq_copy_of_eventOf h he hid honly
      by_cases hseen : id ∈ (expire J s a.now).seen
      · exact Or.inr ⟨fun ⟨_, hpass⟩ => hpass.2.2 hseen, held_receive_seen hcopy h hseen⟩
      · have hpass : Passes J id s a e := ⟨he, hid, hseen⟩
        obtain ⟨htimely, hguard⟩ := hintime e hpass
        exact Or.inl ⟨⟨e, hpass⟩, held_receive_pass hcopy hreplay h hseen htimely hguard⟩
    · refine Or.inr ⟨fun ⟨e', hpass⟩ => ?_, held_receive_other (hdigest e he) h he hid⟩
      have heq : e = e' := Option.some.inj (he.symm.trans hpass.1)
      exact hid (heq ▸ hpass.2.1)

/-- Every event that arrives under another id has another digest. -/
def DigestsApart (J : Deployment T) (id : String) (s : Stream T) : List (Incoming T) → Prop
  | [] => True
  | a :: arrivals =>
    (∀ e, eventOf J s a = some e → DigestApart J id e) ∧ DigestsApart J id (arrive J s a) arrivals

/-- A run in time bills the event with the first copy that passes, and never again. -/
theorem held_arriveAll (hcopy : Pipeline.Usage id copy) (hreplay : copy.authorizedReplay = true)
    {arrivals : List (Incoming T)} (hdigest : DigestsApart J id s arrivals)
    (honly : OnlyCopies J id arrivals)
    (h : Held J id copy p c s) (hintime : InTime J id s arrivals) :
    (SomePasses J id s arrivals ∧ Held J id copy 1 1 (arriveAll J s arrivals)) ∨
      (¬ SomePasses J id s arrivals ∧ Held J id copy p c (arriveAll J s arrivals)) := by
  induction arrivals generalizing s p c with
  | nil => exact Or.inr ⟨fun hnone => hnone, h⟩
  | cons a arrivals ih =>
    obtain ⟨hfirst, hrest⟩ := hintime
    have honlyRest : OnlyCopies J id arrivals := fun b hb => honly b (List.mem_cons_of_mem a hb)
    rcases held_arrive hdigest.1 hcopy hreplay h (honly a List.mem_cons_self) hfirst with
      ⟨hpass, hheld⟩ | ⟨hpass, hheld⟩
    · left
      rcases ih hdigest.2 honlyRest hheld hrest with ⟨-, hend⟩ | ⟨-, hend⟩
      · exact ⟨Or.inl hpass, hend⟩
      · exact ⟨Or.inl hpass, hend⟩
    · rcases ih hdigest.2 honlyRest hheld hrest with ⟨hsome, hend⟩ | ⟨hnone, hend⟩
      · exact Or.inl ⟨Or.inr hsome, hend⟩
      · exact Or.inr ⟨not_or.mpr ⟨hpass, hnone⟩, hend⟩

theorem inTime_of_counts (hcopy : Pipeline.Usage id copy) (hreplay : copy.authorizedReplay = true)
    {arrivals : List (Incoming T)} (hdigest : DigestsApart J id s arrivals)
    (honly : OnlyCopies J id arrivals)
    (h : Held J id copy p c s)
    (hprojected : (arriveAll J s arrivals).job.projected.count (some id) ≤ 1)
    (hlate : (arriveAll J s arrivals).job.deadLetters.count (some id) ≤ 1) :
    InTime J id s arrivals := by
  induction arrivals generalizing s p c with
  | nil => trivial
  | cons a arrivals ih =>
    have honlyFirst := honly a List.mem_cons_self
    have honlyRest : OnlyCopies J id arrivals := fun b hb => honly b (List.mem_cons_of_mem a hb)
    obtain ⟨hprojectedMono, hlateMono⟩ := suffix_arriveAll J (arrive J s a) arrivals
    have hprojectedNow := (hprojectedMono.sublist.count_le (some id)).trans hprojected
    have hlateNow := (hlateMono.sublist.count_le (some id)).trans hlate
    have hfirst : InTimeAt J id s a := by
      intro e hpass
      obtain ⟨he, hid, hfresh⟩ := hpass
      obtain rfl := eq_copy_of_eventOf h he hid honlyFirst
      have harrive : arrive J s a = receive J s a e := by
        unfold arrive
        rw [he]
      rw [harrive] at hprojectedNow hlateNow
      constructor
      · by_contra hclosed
        rw [Bool.not_eq_false] at hclosed
        have htwo := deadLetters_receive_late hcopy hreplay h hfresh hclosed
        omega
      · intro hmem
        by_contra hkey
        have htwo := projected_receive_unguarded hcopy hreplay hfresh hmem hkey
        omega
    refine ⟨hfirst, ?_⟩
    rcases held_arrive hdigest.1 hcopy hreplay h honlyFirst hfirst with ⟨-, hheld⟩ | ⟨-, hheld⟩
    · exact ih hdigest.2 honlyRest hheld hprojected hlate
    · exact ih hdigest.2 honlyRest hheld hprojected hlate

/-! ### The first, late arrival -/

private theorem deadLetters_of_heartbeat {A : Aggregator} {watermark : ℤ} {i : Option String}
    {s : Pipeline (Option String)} (hsound : e.malformedEnvelope = false)
    (hbeat : isHeartbeat e = true) :
    (s.process A watermark i e).deadLetters = s.deadLetters := by
  unfold Pipeline.process
  rw [if_neg (by rw [hsound]; decide), if_pos hbeat]
  split_ifs <;> rfl

theorem usage_of_sent (he : eventOf J s a = some e) (hid : e.eventId = some id)
    (hsent : (receive J s a e).dlq ≠ s.dlq) : Identified e ∧ Pipeline.Usage id e := by
  have hsound : e.malformedEnvelope = false := by
    by_contra hbad
    rw [Bool.not_eq_false] at hbad
    have hsink : reachesLateSink (expire J s a.now)
        ((expire J s a.now).process J.job a.watermark e.eventId e) e = false := by
      unfold reachesLateSink
      rw [hbad]
      rfl
    apply hsent
    unfold receive
    dsimp only
    rw [hsink]
    rfl
  have hidentified := identified_of_eventOf he hsound
  refine ⟨hidentified, hsound, ?_, ?_, hid⟩
  · obtain ⟨⟨c, hcustomer, -⟩, -, hmodel⟩ := hidentified
    rw [hcustomer]
    cases hcase : e.modelId with
    | none =>
      rw [hcase] at hmodel
      cases hmodel
    | some _ => rfl
  · by_contra hbeat
    rw [Bool.not_eq_false] at hbeat
    exact hsent (dlq_receive_of_eq (deadLetters_of_heartbeat hsound hbeat))

theorem usage_replayed (now : ℤ) (h : Pipeline.Usage id e) :
    Pipeline.Usage id (replayed e now) :=
  ⟨h.sound, h.fields, h.usage, h.eventId⟩

/-- After its first, late arrival the event is late once and counted nowhere; the window may have
dropped it after it was projected. -/
private theorem traces_first (hnew : NoTrace J id s) (husage : Pipeline.Usage id e)
    (hsent : (receive J s a e).dlq ≠ s.dlq) (w : String × ℤ) :
    ∃ p, Pipeline.Traces (projectionKey J.job.sha256 (some id)) id w p 0
      (receive J s a e).job := by
  have hjob : (receive J s a e).job =
      (expire J s a.now).process J.job a.watermark e.eventId e := rfl
  have hgrew : ((expire J s a.now).process J.job a.watermark e.eventId e).deadLetters ≠
      s.job.deadLetters := fun heq => hsent (dlq_receive_of_eq heq)
  have hunguarded : projectionKey J.job.sha256 (some id) ∉ (expire J s a.now).projectionKeys :=
    fun hmem => hnew.guard (List.mem_of_mem_filter hmem)
  have hcounted : s.job.counted.count (some id) = 0 := List.count_eq_zero.mpr hnew.counted
  have hprojected : s.job.projected.count (some id) = 0 := List.count_eq_zero.mpr hnew.projected
  have hdead : s.job.deadLetters.count (some id) = 0 := List.count_eq_zero.mpr hnew.deadLetters
  have hwindows : ∀ k, id ∈ (s.job.windows k).seenEventIds ↔ 0 = 1 ∧ k = w := fun k =>
    iff_of_false (hnew.windows k) fun h => absurd h.1 zero_ne_one
  rw [hjob]
  rcases Pipeline.process_cases (A := J.job) a.watermark (i := e.eventId)
    (s := expire J s a.now) husage.sound husage.fields husage.usage husage.eventId with
    ⟨hseen, -⟩ | ⟨-, -, heq⟩ | ⟨-, heq⟩
  · exact absurd (List.mem_of_mem_filter hseen) hnew.seen
  · rw [heq]
    refine ⟨0, zero_le_one, zero_le_one, hprojected, hcounted, ?_, fun _ => hunguarded, hwindows⟩
    rw [husage.eventId, List.count_cons_self]
    exact congrArg (· + 1) hdead
  · rw [heq] at hgrew ⊢
    cases hlate : J.job.windowLate e.timestamp a.watermark with
    | false => exact absurd (Pipeline.bill_deadLetters hlate) hgrew
    | true =>
      obtain ⟨hbillWindows, hbillCounted, hbillDead⟩ := Pipeline.bill_of_late (A := J.job)
        (i := e.eventId) (s := { expire J s a.now with seen := id :: (expire J s a.now).seen })
        hlate
      rcases Pipeline.bill_projected (A := J.job) a.watermark (i := e.eventId) (e := e)
        (s := { expire J s a.now with seen := id :: (expire J s a.now).seen }) with
        ⟨hin, -⟩ | ⟨-, -, hlog⟩
      · rw [husage.eventId] at hin
        exact absurd hin hunguarded
      · refine ⟨1, le_rfl, zero_le_one, ?_, ?_, ?_, fun h => absurd h one_ne_zero, ?_⟩
        · rw [hlog, husage.eventId, List.count_cons_self]
          exact congrArg (· + 1) hprojected
        · rw [hbillCounted]
          exact hcounted
        · rw [hbillDead, husage.eventId, List.count_cons_self]
          exact congrArg (· + 1) hdead
        · rw [hbillWindows]
          exact hwindows

private theorem held_first (hnew : NoTrace J id s)
    (hidentified : Identified e) (husage : Pipeline.Usage id e)
    (hsent : (receive J s a e).dlq ≠ s.dlq) :
    ∃ p, Held J id (replayed e a.sinkClock) p 0 (receive J s a e) := by
  obtain ⟨p, htraces⟩ := traces_first hnew husage hsent
    (Pipeline.windowOf J.job (replayed e a.sinkClock))
  refine ⟨p, htraces, fun bytes hbytes clock hrecord => ?_⟩
  rcases mem_dlq_receive hbytes with hold | ⟨-, rfl⟩
  · exact absurd hrecord (hnew.records bytes hold clock)
  · exact deserialize_lateRecord clock hidentified a.sinkClock_long

/-- A late event is billed exactly once by the copies of its record iff some copy arrives after the
deduplicator forgot the event, and every copy that does finds the window of its record open and the
guard of an earlier projection in force. -/
theorem replayedOnce_iff {arrivals : List (Incoming T)} {first : Incoming T}
    (hdigest : DigestsApart J id (arrive J s first) arrivals) (hnew : NoTrace J id s)
    (he : eventOf J s first = some e) (hid : e.eventId = some id)
    (hsent : (arrive J s first).dlq ≠ s.dlq) (honly : OnlyCopies J id arrivals) :
    ReplayedOnce id (arriveAll J (arrive J s first) arrivals) ↔
      InTime J id (arrive J s first) arrivals ∧ SomePasses J id (arrive J s first) arrivals := by
  have harrive : arrive J s first = receive J s first e := by
    unfold arrive
    rw [he]
  rw [harrive] at hsent hdigest ⊢
  obtain ⟨hidentified, husage⟩ := usage_of_sent he hid hsent
  obtain ⟨p, hheld⟩ := held_first hnew hidentified husage hsent
  have hcopy := usage_replayed first.sinkClock husage
  constructor
  · intro h
    have hintime : InTime J id (receive J s first e) arrivals :=
      inTime_of_counts hcopy rfl hdigest honly hheld h.projected.le h.late.le
    refine ⟨hintime, ?_⟩
    rcases held_arriveAll hcopy rfl hdigest honly hheld hintime with ⟨hsome, -⟩ | ⟨-, hend⟩
    · exact hsome
    · have hcounted := hend.traces.counted
      rw [h.windowed] at hcounted
      exact absurd hcounted one_ne_zero
  · rintro ⟨hintime, hsome⟩
    rcases held_arriveAll hcopy rfl hdigest honly hheld hintime with ⟨-, hend⟩ | ⟨hnone, -⟩
    · exact ⟨hend.traces.counted, hend.traces.projected, hend.traces.deadLetters⟩
    · exact absurd hsome hnone

end Arrivals

/-- The ten-second job with the times to live that are the defaults. -/
def defaultDeployment : Deployment .tree where
  job := flinkJob
  mapper := .fieldwise

/-- An event of the first window arrives when the watermark has left it. -/
def lateArrival : Incoming .tree where
  message := .published (.obj (usage "t1" 1).envelope)
  now := 30000
  watermark := 25000
  sinkClock := 30000
  sinkClock_long := by decide

/-- A copy of a record, eleven minutes after another time. -/
def copyAfter (offset : ℕ) (time watermark : ℤ) (h : isLong (time + 660000)) : Incoming .tree where
  message := .copied offset
  now := time + 660000
  watermark := watermark
  sinkClock := time + 660000
  sinkClock_long := h

/-- The watermark has stood still since the record was written. -/
theorem replayedOnce_stalled : ReplayedOnce "e1" (arriveAll defaultDeployment
    (arrive defaultDeployment {} lateArrival) [copyAfter 0 30000 25000 (by decide)]) := by
  have hfirst : ∃ e, eventOf defaultDeployment {} lateArrival = some e ∧
      e.eventId = some "e1" := ⟨_, rfl, by decide +kernel⟩
  have hcopy : (eventOf defaultDeployment (arrive defaultDeployment {} lateArrival)
      (copyAfter 0 30000 25000 (by decide))).map (fun e => (e.eventId, e.timestamp)) =
      some (some "e1", 30000) := by decide +kernel
  obtain ⟨e, he, hid⟩ := hfirst
  obtain ⟨c, hc, hfields⟩ := Option.map_eq_some_iff.mp hcopy
  have hcid : c.eventId = some "e1" := congrArg Prod.fst hfields
  have hdigest : DigestsApart defaultDeployment "e1" (arrive defaultDeployment {} lateArrival)
      [copyAfter 0 30000 25000 (by decide)] := by
    refine ⟨fun c' hc' other hother _ => ?_, trivial⟩
    rw [← Option.some.inj (hc.symm.trans hc'), hcid] at hother
    exact (Option.some.inj hother).symm
  refine (replayedOnce_iff hdigest ?_ he hid ?_ ?_).mpr ⟨⟨fun c' hpass => ⟨?_, ?_⟩, trivial⟩,
    Or.inl ⟨c, hc, hcid, by decide +kernel⟩⟩
  · exact ⟨List.not_mem_nil, List.not_mem_nil, fun _ => List.not_mem_nil, List.not_mem_nil,
      List.not_mem_nil, List.not_mem_nil, fun _ h => by cases h⟩
  · intro hsame
    have hlength := congrArg List.length hsame
    revert hlength
    decide +kernel
  · intro a ha bytes hmessage
    rw [List.mem_singleton.mp ha] at hmessage
    cases hmessage
  · have htime : c'.timestamp = 30000 := by
      rw [← Option.some.inj (hc.symm.trans hpass.1)]
      exact congrArg Prod.snd hfields
    rw [htime]
    decide +kernel
  · intro hmem
    revert hmem
    decide +kernel

/-- Under live traffic every copy finds its window closed: it is projected, dropped by the window
and written to the dead letters again, as often as it is replayed. -/
theorem replayed_again_and_again :
    let s := arriveAll defaultDeployment (arrive defaultDeployment {} lateArrival)
      [copyAfter 0 30000 685000 (by decide), copyAfter 1 690000 1345000 (by decide)]
    s.job.projected.count (some "e1") = 2 ∧ s.job.counted.count (some "e1") = 0 ∧
      s.dlq.length = 3 ∧ ¬ ReplayedOnce "e1" s := by
  refine ⟨by decide +kernel, by decide +kernel, by decide +kernel, fun h => ?_⟩
  have hcounted := h.windowed
  revert hcounted
  decide +kernel

end FluxMeter.Job
