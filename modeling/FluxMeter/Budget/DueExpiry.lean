import FluxMeter.Budget.Settlement
import FluxMeter.Transition.Keyed
import FluxMeter.Transition.Runs

/-! `expire_due` among other clients: it reads the due reservations once and closes them one by one,
while streams refresh their deadlines and reservations are opened and settled. -/
namespace FluxMeter.Budget.Expiry
open Collections FluxMeter.Keys Transition

inductive Client
  | idle
  /-- In the loop of `expire_due`, with the ids that it has not reached yet. -/
  | expiring (cutoff : ℚ) (due : List String)
  /-- Between the `EXISTS` and the transaction of `refresh`. -/
  | refreshing (reservationId : String) (deadline : ℚ)
  deriving DecidableEq

/-- A reservation that `expire_due` closed, with its deadline at that moment and the deadline that
the last refresh since its opening set. -/
structure Closure where
  reservationId : String
  cutoff : ℚ
  deadline : Option ℚ
  refreshed : Option ℚ
  deriving DecidableEq

structure State where
  redis : Redis := {}
  clients : ℕ → Client := fun _ => .idle
  refreshed : String → Option ℚ := fun _ => none
  closures : List Closure := []

inductive Action
  /-- `ZRANGEBYSCORE` of an `expire_due`. -/
  | expireDue (client : ℕ) (cutoff : ℚ)
  /-- `CLOSE_SCRIPT` of its next id, on the keys that the reads in front of it found. -/
  | close (client : ℕ) (heldKey : BudgetKey) (spanHeldKey : Option SpanKey)
  /-- `EXISTS` of a `refresh`. -/
  | refresh (client : ℕ) (reservationId : String) (expiresAt : Option ℚ) (clock : ℚ)
  /-- Its transaction of `EXPIRE` and `ZADD`. -/
  | extend (client : ℕ)
  /-- `OPEN_SCRIPT`, on the keys that the reads in front of it found. -/
  | openHold (budget : BudgetKey) (span : Option SpanKey) (args : OpenArgs)
  /-- `CLOSE_SCRIPT` of a `settle`. -/
  | settle (reservationId : String) (heldKey : BudgetKey) (spanHeldKey : Option SpanKey)
  /-- The record outlives its time to live. -/
  | recordExpires (reservationId : String)

/-- The loop goes on or returns. -/
def loop (cutoff : ℚ) : List String → Client
  | [] => .idle
  | due => .expiring cutoff due

def step (s : State) : Action → Option State
  | .expireDue i cutoff =>
    match s.clients i with
    | .idle => some { s with
        clients := Function.update s.clients i (loop cutoff (Reservation.due s.redis cutoff)) }
    | _ => none
  | .close i heldKey spanHeldKey =>
    match s.clients i with
    | .expiring cutoff (reservationId :: due) =>
      let (redis, result) := closeScript s.redis reservationId heldKey spanHeldKey
      some { s with
        redis
        clients := Function.update s.clients i (loop cutoff due)
        closures := match result with
          | some _ => ⟨reservationId, cutoff, s.redis.pending.get reservationId,
              s.refreshed reservationId⟩ :: s.closures
          | none => s.closures }
    | _ => none
  | .refresh i reservationId expiresAt clock =>
    match s.clients i with
    | .idle => some { s with
        clients := Function.update s.clients i
          (match s.redis.reservations.get reservationId with
            | some _ => .refreshing reservationId (expiresAt.getD (clock + 900))
            | none => .idle) }
    | _ => none
  | .extend i =>
    match s.clients i with
    | .refreshing reservationId deadline => some { s with
        redis := { s.redis with pending := s.redis.pending.set reservationId deadline }
        clients := Function.update s.clients i .idle
        refreshed := Function.update s.refreshed reservationId (some deadline) }
    | _ => none
  | .openHold budget span args =>
    let (redis, reply) := openScript s.redis budget span args
    some { s with
      redis
      refreshed := if reply.isOpened then Function.update s.refreshed args.reservationId none
        else s.refreshed }
  | .settle reservationId heldKey spanHeldKey =>
    some { s with redis := (closeScript s.redis reservationId heldKey spanHeldKey).1 }
  | .recordExpires reservationId =>
    some { s with redis := { s.redis with
      reservations := s.redis.reservations.erase reservationId } }

/-- The closed reservation was due, and the last refresh had not moved its deadline past the cutoff. -/
def Closure.Due (c : Closure) : Prop :=
  (∃ d, c.deadline = some d ∧ d ≤ c.cutoff) ∧ ∀ d ∈ c.refreshed, d ≤ c.cutoff

/-- No `expire_due` that is still to close the reservation has a cutoff before the deadline. -/
def Spared (s : State) (reservationId : String) (deadline : ℚ) : Prop :=
  ∀ i cutoff due, s.clients i = .expiring cutoff due → reservationId ∈ due → deadline ≤ cutoff

/-- A refresh and an open set no deadline past the cutoff of an `expire_due` that has read the
reservation as due and has not closed it yet. -/
def InTime (s : State) : Action → Prop
  | .extend i => ∀ reservationId deadline, s.clients i = .refreshing reservationId deadline →
      Spared s reservationId deadline
  | .openHold _ _ args => s.redis.reservations.get args.reservationId = none →
      Spared s args.reservationId args.deadline
  | _ => True

/-- Nothing is under way, every reservation has a deadline and nothing was refreshed or closed. -/
structure Fresh (s : State) : Prop where
  clients : ∀ i, s.clients i = .idle
  pending : ∀ id, s.redis.reservations.get id ≠ none → s.redis.pending.get id ≠ none
  refreshed : ∀ id, s.refreshed id = none
  closures : s.closures = []

/-- What a run keeps: the deadline of a record is the one its last refresh set, and what is still to
be closed is due. -/
structure Kept (s : State) : Prop where
  deadline : ∀ id, s.redis.reservations.get id ≠ none →
    ∃ d, s.redis.pending.get id = some d ∧ ∀ d' ∈ s.refreshed id, d' = d
  due : ∀ i cutoff due, s.clients i = .expiring cutoff due → ∀ id ∈ due, ∀ d,
    s.redis.pending.get id = some d → d ≤ cutoff
  closures : ∀ c ∈ s.closures, c.Due

theorem Fresh.kept {s : State} (h : Fresh s) : Kept s where
  deadline id hid := by
    obtain ⟨d, hd⟩ := Option.ne_none_iff_exists'.mp (h.pending id hid)
    refine ⟨d, hd, ?_⟩
    rw [h.refreshed]
    simp
  due i cutoff due hclient := by
    rw [h.clients] at hclient
    cases hclient
  closures := by
    rw [h.closures]
    simp

/-! ### The scripts -/

theorem closeScript_tables (r : Redis) (id : String) (b : BudgetKey) (span : Option SpanKey) :
    (closeScript r id b span).1.reservations = r.reservations.erase id ∧
      (closeScript r id b span).1.pending = r.pending.erase id := by
  unfold closeScript
  cases hget : r.reservations.get id with
  | none => exact ⟨(r.reservations.erase_of_none hget).symm, rfl⟩
  | some record =>
    obtain ⟨hreservations, hpending, -⟩ := releaseHold_frame r b span record.reservedUsd
    constructor
    · show (releaseHold r b span record.reservedUsd).1.reservations.erase id = _
      rw [hreservations]
    · show (releaseHold r b span record.reservedUsd).1.pending.erase id = _
      rw [hpending]

theorem closeScript_result (r : Redis) (id : String) (b : BudgetKey) (span : Option SpanKey) :
    (closeScript r id b span).2.isSome = (r.reservations.get id).isSome := by
  unfold closeScript
  cases r.reservations.get id <;> rfl

theorem openScript_tables (r : Redis) (b : BudgetKey) (span : Option SpanKey) (a : OpenArgs) :
    ((openScript r b span a).2.isOpened = false ∧ (openScript r b span a).1 = r) ∨
      (openScript r b span a).2.isOpened = true ∧ r.reservations.get a.reservationId = none ∧
        (openScript r b span a).1.reservations =
          r.reservations.set a.reservationId (a.record b span) ∧
        (openScript r b span a).1.pending = r.pending.set a.reservationId a.deadline := by
  rcases openScript_cases r b span a with h | ⟨balance, r₁, spanHeld, spanSpent, hopened, hnone, -, -,
    hadmit, hredis⟩
  · exact Or.inl h
  · obtain ⟨-, hreservations, hpending, -⟩ := admitSpan_frame hadmit
    right
    rw [hredis]
    exact ⟨hopened, hnone, by rw [← hreservations], by rw [← hpending]⟩

/-! ### One step -/

section Step
variable {s t : State}

theorem loop_eq_expiring {cutoff cutoff' : ℚ} {due due' : List String}
    (h : loop cutoff due = .expiring cutoff' due') : cutoff = cutoff' ∧ due = due' := by
  cases due with
  | nil => cases h
  | cons id due => exact ⟨(Client.expiring.inj h).1, (Client.expiring.inj h).2⟩

theorem due_of_range {r : Redis} {cutoff : ℚ} {id : String} (h : id ∈ Reservation.due r cutoff)
    {d : ℚ} (hd : r.pending.get id = some d) : d ≤ cutoff := by
  obtain ⟨d', hget, hsel⟩ := Table.get_of_mem_rangeByScore _ h
  obtain rfl := Option.some.inj (hd.symm.trans hget)
  simp only [Bool.and_eq_true, decide_eq_true_eq] at hsel
  exact hsel.2

/-- What is erased from both tables leaves the rest as it was. -/
theorem Kept.erase (h : Kept s) {id : String}
    (hreservations : t.redis.reservations = s.redis.reservations.erase id)
    (hpending : t.redis.pending = s.redis.pending.erase id) (hrefreshed : t.refreshed = s.refreshed)
    (hclients : ∀ i cutoff due, t.clients i = .expiring cutoff due →
      ∃ due', s.clients i = .expiring cutoff due' ∧ due ⊆ due')
    (hclosures : ∀ c ∈ t.closures, c.Due) : Kept t where
  deadline id' hid' := by
    rw [hreservations, Table.get_erase] at hid'
    split_ifs at hid' with hne
    · exact absurd rfl hid'
    · obtain ⟨d, hd, hlast⟩ := h.deadline id' hid'
      refine ⟨d, ?_, by rw [hrefreshed]; exact hlast⟩
      rw [hpending, Table.get_erase, if_neg hne]
      exact hd
  due i cutoff due hclient id' hid' d hd := by
    obtain ⟨due', hclient', hsub⟩ := hclients i cutoff due hclient
    rw [hpending, Table.get_erase] at hd
    split_ifs at hd
    exact h.due i cutoff due' hclient' id' (hsub hid') d hd
  closures := hclosures

theorem kept_extend (h : Kept s) {i : ℕ} (htime : InTime s (.extend i))
    (hstep : step s (.extend i) = some t) : Kept t := by
  unfold step at hstep
  dsimp only at hstep
  split at hstep
  · rename_i id deadline hclient
    obtain rfl := Option.some.inj hstep
    have hspared := htime id deadline hclient
    refine ⟨fun id' hid' => ?_, fun j cutoff due hdue id' hid' d hd => ?_, h.closures⟩
    · dsimp only at hid' ⊢
      by_cases hid : id' = id
      · subst hid
        refine ⟨deadline, Table.get_set_self _ _ _, ?_⟩
        rw [Function.update_self]
        intro d' hd'
        exact (Option.some.inj hd').symm
      · obtain ⟨d, hd, hlast⟩ := h.deadline id' hid'
        refine ⟨d, (Table.get_set_ne _ _ hid).trans hd, ?_⟩
        rw [Function.update_of_ne hid]
        exact hlast
    · rcases of_update_eq hdue with ⟨-, hidle⟩ | hbefore
      · cases hidle
      · rw [Table.get_set] at hd
        split_ifs at hd with hid
        · subst hid
          exact Option.some.inj hd ▸ hspared j cutoff due hbefore hid'
        · exact h.due j cutoff due hbefore id' hid' d hd
  · cases hstep

theorem step_openHold {budget : BudgetKey} {span : Option SpanKey} {args : OpenArgs}
    (hstep : step s (.openHold budget span args) = some t) :
    t.redis = (openScript s.redis budget span args).1 ∧ t.clients = s.clients ∧
      t.refreshed = (if (openScript s.redis budget span args).2.isOpened then
        Function.update s.refreshed args.reservationId none else s.refreshed) ∧
      t.closures = s.closures := by
  obtain rfl := Option.some.inj hstep
  exact ⟨rfl, rfl, rfl, rfl⟩

theorem kept_open (h : Kept s) {budget : BudgetKey} {span : Option SpanKey} {args : OpenArgs}
    (htime : InTime s (.openHold budget span args))
    (hstep : step s (.openHold budget span args) = some t) : Kept t := by
  obtain ⟨hredis, hclients, hrefreshed, hclosures⟩ := step_openHold hstep
  rcases openScript_tables s.redis budget span args with
    ⟨hrefused, hsame⟩ | ⟨hopened, hnone, hreservations, hpending⟩
  · rw [hsame] at hredis
    rw [hrefused, if_neg (by decide)] at hrefreshed
    refine ⟨?_, ?_, by rw [hclosures]; exact h.closures⟩
    · rw [hredis, hrefreshed]
      exact h.deadline
    · rw [hredis, hclients]
      exact h.due
  · have hspared := htime hnone
    rw [hopened, if_pos rfl] at hrefreshed
    refine ⟨fun id' hid' => ?_, fun j cutoff due hdue id' hid' d hd => ?_,
      by rw [hclosures]; exact h.closures⟩
    · rw [hredis] at hid' ⊢
      rw [hpending, hrefreshed]
      by_cases hid : id' = args.reservationId
      · subst hid
        refine ⟨args.deadline, Table.get_set_self _ _ _, ?_⟩
        rw [Function.update_self]
        simp
      · rw [hreservations, Table.get_set_ne _ _ hid] at hid'
        obtain ⟨d, hd, hlast⟩ := h.deadline id' hid'
        refine ⟨d, (Table.get_set_ne _ _ hid).trans hd, ?_⟩
        rw [Function.update_of_ne hid]
        exact hlast
    · rw [hclients] at hdue
      rw [hredis, hpending, Table.get_set] at hd
      split_ifs at hd with hid
      · subst hid
        exact Option.some.inj hd ▸ hspared j cutoff due hdue hid'
      · exact h.due j cutoff due hdue id' hid' d hd

theorem kept_close (h : Kept s) {i : ℕ} {b : BudgetKey} {span : Option SpanKey}
    (hstep : step s (.close i b span) = some t) : Kept t := by
  unfold step at hstep
  dsimp only at hstep
  split at hstep
  · rename_i cutoff id due hclient
    obtain rfl := Option.some.inj hstep
    obtain ⟨hreservations, hpending⟩ := closeScript_tables s.redis id b span
    refine h.erase hreservations hpending rfl ?_ ?_
    · intro j cutoff' due' hdue
      rcases of_update_eq hdue with ⟨rfl, hloop⟩ | hbefore
      · obtain ⟨rfl, rfl⟩ := loop_eq_expiring hloop
        exact ⟨_, hclient, List.subset_cons_self id _⟩
      · exact ⟨due', hbefore, List.Subset.refl due'⟩
    · dsimp only
      cases hresult : (closeScript s.redis id b span).2 with
      | none => exact h.closures
      | some result =>
        have hrecord := closeScript_result s.redis id b span
        rw [hresult] at hrecord
        obtain ⟨d, hd, hlast⟩ := h.deadline id (Option.isSome_iff_ne_none.mp hrecord.symm)
        have hdue := h.due i cutoff (id :: due) hclient id List.mem_cons_self d hd
        refine List.forall_mem_cons.mpr ⟨⟨⟨d, hd, hdue⟩, fun d' hd' => ?_⟩, h.closures⟩
        rw [hlast d' hd']
        exact hdue
  · cases hstep

theorem kept_step (h : Kept s) {a : Action} (htime : InTime s a) (hstep : step s a = some t) :
    Kept t := by
  cases a with
  | expireDue i cutoff =>
    unfold step at hstep
    dsimp only at hstep
    split at hstep
    · obtain rfl := Option.some.inj hstep
      refine ⟨h.deadline, fun j cutoff' due hdue id hid d hd => ?_, h.closures⟩
      rcases of_update_eq hdue with ⟨-, hloop⟩ | hdue
      · obtain ⟨rfl, rfl⟩ := loop_eq_expiring hloop
        exact due_of_range hid hd
      · exact h.due j cutoff' due hdue id hid d hd
    · cases hstep
  | close i b span => exact kept_close h hstep
  | refresh i id expiresAt clock =>
    unfold step at hstep
    dsimp only at hstep
    split at hstep
    · obtain rfl := Option.some.inj hstep
      refine ⟨h.deadline, fun j cutoff due hdue id hid d hd => ?_, h.closures⟩
      rcases of_update_eq hdue with ⟨-, hloop⟩ | hdue
      · split at hloop
        · cases hloop
        · cases hloop
      · exact h.due j cutoff due hdue id hid d hd
    · cases hstep
  | extend i => exact kept_extend h htime hstep
  | openHold budget span args => exact kept_open h htime hstep
  | settle id b span =>
    obtain rfl := Option.some.inj hstep
    obtain ⟨hreservations, hpending⟩ := closeScript_tables s.redis id b span
    exact h.erase hreservations hpending rfl
      (fun j cutoff due hdue => ⟨due, hdue, List.Subset.refl due⟩) h.closures
  | recordExpires id =>
    obtain rfl := Option.some.inj hstep
    refine ⟨fun id' hid' => h.deadline id' fun hnone => hid' ?_, h.due, h.closures⟩
    dsimp only
    rw [Table.get_erase, hnone, ite_self]

end Step

/-- In every run whose refreshes and opens are in time, what `expire_due` closes is due at the moment
that it is closed, whatever the other clients do in between. -/
theorem expiry_takes_due {s t : State} {as : List Action} (hs : Fresh s)
    (htime : Guarded step InTime s as) (hrun : run step s as = some t) : ∀ c ∈ t.closures, c.Due :=
  (guarded_invariant (fun _ _ _ h htime hstep => kept_step h htime hstep) hs.kept htime hrun).closures

/-! ### Calls on their own -/

/-- A refresh with nothing between its two commands is the operation of the model of one call. -/
theorem refresh_alone {s : State} {i : ℕ} (hidle : s.clients i = .idle) {id : String}
    (hopen : s.redis.reservations.get id ≠ none) (expiresAt : Option ℚ) (clock : ℚ) :
    (run step s [.refresh i id expiresAt clock, .extend i]).map State.redis =
      some (Reservation.refresh s.redis id expiresAt clock).1 := by
  obtain ⟨record, hrecord⟩ := Option.ne_none_iff_exists'.mp hopen
  simp [run, step, hidle, hrecord, Reservation.refresh]

theorem step_close {s : State} {i : ℕ} {cutoff : ℚ} {id : String} {due : List String}
    (hclient : s.clients i = .expiring cutoff (id :: due)) (b : BudgetKey) (span : Option SpanKey) :
    ∃ t, step s (.close i b span) = some t ∧ t.clients i = loop cutoff due ∧
      t.redis = (closeScript s.redis id b span).1 := by
  unfold step
  dsimp only
  rw [hclient]
  exact ⟨_, rfl, Function.update_self i _ _, rfl⟩

/-- The loop of an `expire_due` that nobody interrupts closes the reservations one after another. -/
theorem expireDue_alone {cutoff : ℚ} (due : List String) {s : State} {i : ℕ}
    (hclient : s.clients i = loop cutoff due) (released : ℕ) :
    ∃ as t, run step s as = some t ∧ t.clients i = .idle ∧ t.redis = (due.foldl (fun acc id =>
      let (r₁, result) := Reservation.close acc.1 id
      (r₁, if result.isSome then acc.2 + 1 else acc.2)) (s.redis, released)).1 := by
  induction due generalizing s released with
  | nil => exact ⟨[], s, rfl, hclient, rfl⟩
  | cons id due ih =>
    obtain ⟨u, hu, hnext, hredis⟩ := step_close hclient (Reservation.heldKeyOf s.redis id)
      ((s.redis.reservations.get id).bind ReservationRecord.spanHeldKey)
    obtain ⟨as, t, hrun, hidle, hrest⟩ :=
      ih hnext (if (Reservation.close s.redis id).2.isSome then released + 1 else released)
    refine ⟨_ :: as, t, run_cons_eq_some.mpr ⟨u, hu, hrun⟩, hidle, ?_⟩
    rw [hrest, hredis]
    rfl

/-- A reservation that is due at 10. -/
def dueAtTen : OpenArgs where
  reservationId := "stream"
  customerId := "c1"
  tenantId := ""
  parentSpanId := ""
  estimate := 1 / 2
  deadline := 10

/-- A customer with a balance, and nothing under way. -/
def funded : State where
  redis := { budgets := fun _ => { balanceUsd := some 5 } }

theorem fresh_funded : Fresh funded where
  clients _ := rfl
  pending _ hid := absurd rfl hid
  refreshed _ := rfl
  closures := rfl

theorem expiry_takes_due_stream : ∃ t, run step funded
    [.openHold ⟨none, "c1"⟩ none dueAtTen, .expireDue 0 20, .close 0 ⟨none, "c1"⟩ none] = some t ∧
      ∀ c ∈ t.closures, c.Due := by
  obtain ⟨t, hrun⟩ : ∃ t, run step funded [.openHold ⟨none, "c1"⟩ none dueAtTen, .expireDue 0 20,
      .close 0 ⟨none, "c1"⟩ none] = some t := Option.isSome_iff_exists.mp (by decide +kernel)
  refine ⟨t, hrun, expiry_takes_due fresh_funded ?_ hrun⟩
  refine ⟨?_, fun _ _ => ⟨trivial, fun _ _ => ⟨trivial, fun _ _ => trivial⟩⟩⟩
  intro _ i cutoff due hclient
  cases hclient

/-- A stream refreshes its reservation to 100 after an `expire_due` at 20 has read it as due at 10,
and the reservation is closed. -/
theorem not_expiry_takes_due :
    Fresh funded ∧
      (run step funded [.openHold ⟨none, "c1"⟩ none dueAtTen, .expireDue 0 20,
        .refresh 1 "stream" (some 100) 15, .extend 1, .close 0 ⟨none, "c1"⟩ none]).map
          State.closures = some [⟨"stream", 20, some 100, some 100⟩] ∧
      ¬ Closure.Due ⟨"stream", 20, some 100, some 100⟩ := by
  refine ⟨fresh_funded, by decide +kernel, fun h => ?_⟩
  exact absurd (h.2 100 rfl) (by decide +kernel)

end FluxMeter.Budget.Expiry
