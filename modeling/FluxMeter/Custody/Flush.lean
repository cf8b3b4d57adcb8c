import FluxMeter.Custody.Batcher
import FluxMeter.Custody.ShapeOnly

/-! `TokenEventCustodyBatcher._flush` with `accept_many` for the requests of every context, beside
`accept` for the requests in their queue order. -/
namespace FluxMeter.Custody
open Collections FluxMeter.Wire Transition

/-- How the call of the batcher comes back. -/
def BatchEnding.outcome : BatchEnding → Batcher.Outcome Result Unit
  | .returned results => .returned results
  | .raised => .raised ()
  | .unresolved => .raised ()

namespace Batcher
variable {κ : Type*}

def Answer.status {χ : Type*} : Answer Result χ → Option Status
  | .result r => some r.status
  | .exception _ => none
  | .wrongNumber => none

/-- The custody of every context, and the surroundings of its batch and of its single calls. -/
structure Setting (κ : Type*) where
  custody : κ → TokenEventCustody
  batch : κ → Surroundings
  single : κ → ℕ → Surroundings

/-- What the requests leave and are told; `none` is an exception. -/
structure Execution (κ : Type*) where
  store : IdentityStore
  produced : List Message := []
  told : List (Request Dict κ × Option Status) := []

/-- One group of a flush after the other. -/
def flushGroups (S : Setting κ) : List (κ × List (Request Dict κ)) → IdentityStore → Execution κ
  | [], s => { store := s }
  | (context, group) :: groups, s =>
    let r := (S.custody context).acceptMany (S.batch context) (group.map Request.event) s
    let call : Call Dict κ Result Unit := { context, group, outcome := r.ending.outcome }
    let rest := flushGroups S groups r.store
    { store := rest.store
      produced := r.produced ++ rest.produced
      told := group.zip (call.answers.map Answer.status) ++ rest.told }

variable [DecidableEq κ]

def flush (S : Setting κ) (requests : List (Request Dict κ)) (s : IdentityStore) : Execution κ :=
  flushGroups S (groupByContext requests) s

/-- The place of a request among those of its context. -/
def place (requests : List (Request Dict κ)) (r : Request Dict κ) : ℕ :=
  (requests.filter fun q => q.context = r.context).findIdx fun q => q.number = r.number

/-- The call of `accept` for a request. -/
def Setting.callOf (S : Setting κ) (requests : List (Request Dict κ)) (r : Request Dict κ) :
    SerialCall :=
  { custody := S.custody r.context
    surroundings := S.single r.context (place requests r)
    index := place requests r
    event := r.event }

/-- `accept` for the requests in a given order. -/
def inTurn (S : Setting κ) (requests turns : List (Request Dict κ)) (s : IdentityStore) :
    Execution κ :=
  let r := acceptSerially (turns.map (S.callOf requests)) s
  { store := r.store
    produced := r.produced
    told := turns.zip (r.endings.map Ending.status) }

/-- Two executions tell every request the same, and leave the same entries and messages. -/
structure Execution.Same (first last : ℤ) (a b : Execution κ) : Prop where
  told : a.told.Perm b.told
  store : ∀ now, first ≤ now → now ≤ last → a.store.ledger now = b.store.ledger now
  messages : a.produced.Perm b.produced

/-- Under a free entry, the first request of the queue comes first in the groups. -/
def InOrder (S : Setting κ) (ledger : Location → Option String) (requests : List (Request Dict κ)) :
    Prop :=
  ∀ l, ledger l = none →
    (requests.find? fun r => (S.callOf requests r).location = some l) =
      ((groupByContext requests).flatMap Prod.snd).find?
        fun r => (S.callOf requests r).location = some l

/-- Every batch of a flush has the condition in the store that it finds. -/
def GroupsKeepShape (S : Setting κ) (first : ℤ) :
    List (κ × List (Request Dict κ)) → IdentityStore → Prop
  | [], _ => True
  | (context, group) :: groups, s =>
    (S.custody context).KeepsShape (S.batch context) (s.ledger first) (group.map Request.event) ∧
      GroupsKeepShape S first groups
        ((S.custody context).acceptMany (S.batch context) (group.map Request.event) s).store

/-- Kafka and Redis answer every call, no entry expires between `first` and `last`, the contexts hold
no reservation, event ids have digests of their own, and trace ids are given once. -/
structure Setting.Sound (S : Setting κ) (first last : ℤ) (requests : List (Request Dict κ)) :
    Prop where
  ordered : first ≤ last
  answering : ∀ k, (S.batch k).Answering
  within : ∀ k, (S.batch k).Within first last
  alongside : ∀ k, Alongside first last (S.batch k) (S.single k)
  outlasts : ∀ k, IdentityContext.Outlasts (S.custody k).settings first last
  reservation : ∀ k, (S.custody k).reservationId = none
  apart : ∀ k, (S.custody k).IdsApart (S.batch k)
    ((requests.filter fun r => r.context = k).map Request.event)
  traces : ∀ k i k' i', (S.batch k).traceId i = (S.batch k').traceId i' → k = k' ∧ i = i'
  numbers : (requests.map Request.number).Nodup

/-! ### The calls -/

section Sound
variable {S : Setting κ} {first last : ℤ} {requests turns : List (Request Dict κ)}
  {groups : List (κ × List (Request Dict κ))} {s s' : IdentityStore}

private theorem answered_callOf (h : S.Sound first last requests) (r : Request Dict κ) :
    (S.callOf requests r).Answered first last :=
  ⟨(h.alongside r.context).answering _, (h.alongside r.context).within _, h.outlasts r.context⟩

theorem answered_calls (h : S.Sound first last requests) (turns : List (Request Dict κ)) :
    ∀ c ∈ turns.map (S.callOf requests), c.Answered first last := by
  intro c hc
  obtain ⟨r, -, rfl⟩ := List.mem_map.mp hc
  exact answered_callOf h r

theorem place_of_group (hnumbers : (requests.map Request.number).Nodup) {r : Request Dict κ} {i : ℕ}
    (hr : (requests.filter fun q => q.context = r.context)[i]? = some r) :
    place requests r = i := by
  have hnodup : ((requests.filter fun q => q.context = r.context).map Request.number).Nodup :=
    hnumbers.sublist (List.filter_sublist.map _)
  obtain ⟨hi, hget⟩ := List.getElem?_eq_some_iff.mp hr
  unfold place
  rw [List.findIdx_eq hi]
  refine ⟨by simp [hget], fun j hj => ?_⟩
  have hne : (requests.filter fun q => q.context = r.context)[j].number ≠ r.number := by
    intro heq
    have hsame : ((requests.filter fun q => q.context = r.context).map Request.number)[j]? =
        ((requests.filter fun q => q.context = r.context).map Request.number)[i]? := by
      rw [List.getElem?_map, List.getElem?_map, hr, List.getElem?_eq_getElem (by omega)]
      exact congrArg some heq
    have hindex := (List.getElem?_inj (by rw [List.length_map]; omega) hnodup).mp hsame
    omega
  simpa using hne

/-- The calls for the requests of a group are those of its batch. -/
theorem calls_of_group (hnumbers : (requests.map Request.number).Nodup) {k : κ}
    {group : List (Request Dict κ)} (hgroup : (k, group) ∈ groupByContext requests) :
    group.map (S.callOf requests) =
      (S.custody k).callsOf (S.single k) (group.map Request.event) := by
  have hfilter : group = requests.filter fun r => r.context = k := group_eq_filter hgroup
  apply List.ext_getElem?
  intro i
  rw [TokenEventCustody.getElem?_callsOf, List.getElem?_map, List.getElem?_map]
  cases hr : group[i]? with
  | none => rfl
  | some r =>
    have hcontext : r.context = k := by
      have hmem := List.mem_of_getElem? hr
      rw [hfilter] at hmem
      simpa using (List.mem_filter.mp hmem).2
    subst hcontext
    have hplace : place requests r = i := place_of_group hnumbers (by rw [← hfilter]; exact hr)
    simp only [Option.map_some]
    unfold Setting.callOf
    rw [hplace]

end Sound

end Batcher

end FluxMeter.Custody
