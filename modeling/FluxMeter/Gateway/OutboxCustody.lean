import FluxMeter.Gateway.Outbox

/-! The outbox loses nothing: an event id that was stored is acknowledged by Kafka or still waits in
the outbox, whatever the requests, the workers and the broker do, and wherever they crash. -/
namespace FluxMeter.Gateway.Outbox
open Collections FluxMeter.Wire Transition

/-- The event id is listed and has a blob. -/
def Present (s : Shared) (id : String) : Prop :=
  s.pending.get id ≠ none ∧ s.blobs.get id ≠ none

/-- Kafka has acknowledged a message with this payload. -/
def PayloadAcked (s : Shared) (body : Except PyError Json) : Prop :=
  ∃ m ∈ s.messages, m.delivery = .acked ∧ ∃ e, m.value = .dumped e ∧ payload e = body

/-! ### What no step takes back -/

section Growth
variable {s t : Shared}

/-- Nothing stored is forgotten, and no message is lost, changed or unacknowledged. -/
structure Grows (s t : Shared) : Prop where
  stored : s.stored ⊆ t.stored
  messages : ∀ (i : ℕ) (m : Message), s.messages[i]? = some m → ∃ m', t.messages[i]? = some m' ∧
    m'.value = m.value ∧ (m.delivery = .acked → m'.delivery = .acked)

theorem Grows.of_messages_eq (hstored : s.stored ⊆ t.stored) (h : t.messages = s.messages) :
    Grows s t :=
  ⟨hstored, fun _ m hm => ⟨m, h ▸ hm, rfl, fun h => h⟩⟩

theorem Grows.refl (s : Shared) : Grows s s := .of_messages_eq (List.Subset.refl _) rfl

theorem Grows.trans {u : Shared} (h : Grows s t) (h' : Grows t u) : Grows s u where
  stored := fun _ hp => h'.stored (h.stored hp)
  messages := by
    intro i m hm
    obtain ⟨m', hm', hvalue, hdelivery⟩ := h.messages i m hm
    obtain ⟨m'', hm'', hvalue', hdelivery'⟩ := h'.messages i m' hm'
    exact ⟨m'', hm'', hvalue'.trans hvalue, fun hacked => hdelivery' (hdelivery hacked)⟩

theorem grows_send (m : Message) : Grows s { s with messages := s.messages ++ [m] } where
  stored := fun _ h => h
  messages := by
    intro i m' hm'
    have hlt : i < s.messages.length := (List.getElem?_eq_some_iff.mp hm').1
    exact ⟨m', by rw [List.getElem?_append_left hlt, hm'], rfl, fun h => h⟩

theorem grows_settle {i : ℕ} {m : Message} (accepted : Bool) (hm : s.messages[i]? = some m)
    (hflight : m.delivery = .inFlight) :
    Grows s { s with messages := s.messages.set i (m.settle accepted) } where
  stored := fun _ h => h
  messages := by
    intro j m' hm'
    by_cases hij : i = j
    · subst hij
      have hlt : i < s.messages.length := (List.getElem?_eq_some_iff.mp hm).1
      have heq : m' = m := Option.some.inj (hm'.symm.trans hm)
      refine ⟨m.settle accepted, List.getElem?_set_self hlt, heq ▸ rfl, fun hacked => ?_⟩
      rw [heq, hflight] at hacked
      cases hacked
    · exact ⟨m', by rw [List.getElem?_set_ne hij, hm'], rfl, fun h => h⟩

/-- Everything that a Redis round trip can be for a process. -/
theorem redis_cases {now : ℤ} {pc pc' : Pc} (h : redis s now pc = some (t, pc')) :
    (∃ id customer e, pc = .storing id customer e ∧ t = s.store id e now ∧
      pc' = match encode customer with
        | .ok key => .publishing ⟨id, key, .dumped e⟩
        | .error _ => .finished none) ∨
    (pc = .listing ∧ t = s ∧ pc' = (s.oldest.map Pc.reading).getD (.finished (some false))) ∨
    (∃ id, pc = .reading id ∧ t = s ∧ pc' = flushBlob id (s.blobs.get id)) ∨
    (∃ id, pc = .dropping id ∧ t = { s with pending := s.pending.erase id } ∧
      pc' = .finished (some true)) ∨
    (∃ id raw, pc = .burying id raw ∧ t = { s with dead := s.dead ++ [(id, raw)] } ∧
      pc' = .removing id) ∨
    (∃ id, pc = .removing id ∧ t = s.remove id ∧ pc' = .finished (some true)) := by
  cases pc with
  | storing id customer e =>
    cases h
    exact Or.inl ⟨id, customer, e, rfl, rfl, rfl⟩
  | listing =>
    cases h
    exact Or.inr (Or.inl ⟨rfl, rfl, rfl⟩)
  | reading id =>
    cases h
    exact Or.inr (Or.inr (Or.inl ⟨id, rfl, rfl, rfl⟩))
  | dropping id =>
    cases h
    exact Or.inr (Or.inr (Or.inr (Or.inl ⟨id, rfl, rfl, rfl⟩)))
  | burying id raw =>
    cases h
    exact Or.inr (Or.inr (Or.inr (Or.inr (Or.inl ⟨id, raw, rfl, rfl, rfl⟩))))
  | removing id =>
    cases h
    exact Or.inr (Or.inr (Or.inr (Or.inr (Or.inr ⟨id, rfl, rfl, rfl⟩))))
  | publishing | awaiting | finished => cases h

/-- Everything that one step of a process can be: a Redis round trip, a message given to the
producer, an acknowledgement that is read, or the end of the call. -/
theorem advance_cases {m : Move} {pc pc' : Pc} (h : advance s m pc = some (t, pc')) :
    (∃ now, redis s now pc = some (t, pc')) ∨
    (∃ p, pc = .publishing p ∧ pc' = .awaiting p s.messages.length ∧
      t = { s with messages := s.messages ++ [{ key := p.key, value := p.value }] }) ∨
    (∃ p i msg, pc = .awaiting p i ∧ s.messages[i]? = some msg ∧ msg.delivery = .acked ∧
      t = s ∧ pc' = .removing p.eventId) ∨
    (t = s ∧ ∃ answer, pc' = .finished answer) := by
  cases m with
  | redis now => exact Or.inl ⟨now, h⟩
  | produce error =>
    cases pc with
    | publishing p =>
      rcases error with _ | _ | _ | _
      · cases h
        exact Or.inr (Or.inl ⟨p, rfl, rfl, rfl⟩)
      · cases h
        exact Or.inr (Or.inr (Or.inr ⟨rfl, _, rfl⟩))
      · cases h
        exact Or.inr (Or.inr (Or.inr ⟨rfl, _, rfl⟩))
      · cases h
    | _ => cases error <;> cases h
  | wake =>
    cases pc with
    | awaiting p i =>
      unfold advance at h
      dsimp only at h
      split at h
      · rename_i hacked
        obtain ⟨msg, hmsg, hdelivery⟩ := Option.map_eq_some_iff.mp hacked
        cases h
        exact Or.inr (Or.inr (Or.inl ⟨p, i, msg, rfl, hmsg, hdelivery, rfl, rfl⟩))
      · cases h
        exact Or.inr (Or.inr (Or.inr ⟨rfl, _, rfl⟩))
      · cases h
    | _ => cases h
  | timeout =>
    cases pc with
    | awaiting p i =>
      cases h
      exact Or.inr (Or.inr (Or.inr ⟨rfl, _, rfl⟩))
    | _ => cases h
  | crash =>
    cases pc with
    | finished answer => cases h
    | _ =>
      cases h
      exact Or.inr (Or.inr (Or.inr ⟨rfl, _, rfl⟩))

theorem grows_advance {m : Move} {pc pc' : Pc} (h : advance s m pc = some (t, pc')) :
    Grows s t := by
  rcases advance_cases h with ⟨now, hredis⟩ | ⟨p, -, -, rfl⟩ | ⟨-, -, -, -, -, -, rfl, -⟩ | ⟨rfl, -⟩
  · rcases redis_cases hredis with ⟨id, customer, e, -, rfl, -⟩ | ⟨-, rfl, -⟩ | ⟨id, -, rfl, -⟩ |
      ⟨id, -, rfl, -⟩ | ⟨id, raw, -, rfl, -⟩ | ⟨id, -, rfl, -⟩
    · exact .of_messages_eq (List.subset_cons_self _ _) rfl
    · exact .refl _
    · exact .refl _
    · exact .of_messages_eq (List.Subset.refl _) rfl
    · exact .of_messages_eq (List.Subset.refl _) rfl
    · exact .of_messages_eq (List.Subset.refl _) rfl
  · exact grows_send _
  · exact .refl _
  · exact .refl _

theorem step_move {w w' : System} {i : ℕ} {m : Move} (h : step w (.move i m) = some w') :
    ∃ pc s pc', pc ∈ w.processes ∧ advance w.shared m pc = some (s, pc') ∧
      w' = { shared := s, processes := w.processes.set i pc' } := by
  obtain ⟨pc, hpc, hrest⟩ := Option.bind_eq_some_iff.mp h
  obtain ⟨⟨s, pc'⟩, hadvance, hsome⟩ := Option.bind_eq_some_iff.mp hrest
  exact ⟨pc, s, pc', List.mem_of_getElem? hpc, hadvance, (Option.some.inj hsome).symm⟩

theorem step_deliver {w w' : System} {i : ℕ} {accepted : Bool}
    (h : step w (.deliver i accepted) = some w') :
    ∃ m, w.shared.messages[i]? = some m ∧ m.delivery = .inFlight ∧
      w' = { w with shared :=
        { w.shared with messages := w.shared.messages.set i (m.settle accepted) } } := by
  obtain ⟨m, hm, hrest⟩ := Option.bind_eq_some_iff.mp h
  split_ifs at hrest with hflight
  exact ⟨m, hm, hflight, (Option.some.inj hrest).symm⟩

private theorem grows_step {w w' : System} {ev : Event} (h : step w ev = some w') :
    Grows w.shared w'.shared := by
  cases ev with
  | publish e =>
    cases h
    exact .refl _
  | flush =>
    cases h
    exact .refl _
  | move i m =>
    obtain ⟨pc, s, pc', -, hadvance, rfl⟩ := step_move h
    exact grows_advance hadvance
  | deliver i accepted =>
    obtain ⟨m, hm, hflight, rfl⟩ := step_deliver h
    exact grows_settle accepted hm hflight

theorem grows_run {w w' : System} {events : List Event} (h : run step w events = some w') :
    Grows w.shared w'.shared :=
  run_invariant (P := fun u => Grows w.shared u.shared)
    (fun _ _ _ hu hstep => hu.trans (grows_step hstep)) (.refl _) h

end Growth

section Invariant
variable (published : Json → Prop)

/-- Some envelope that was published under the event id has this text. -/
def IsCopy (id : String) (raw : Blob) : Prop :=
  ∃ e, published e ∧ eventId e = .ok id ∧ raw = .dumped e

/-- Kafka has acknowledged an envelope of the event id. -/
def Acked (s : Shared) (id : String) : Prop :=
  ∃ m ∈ s.messages, m.delivery = .acked ∧ IsCopy published id m.value

structure Keeps (s : Shared) : Prop where
  blob : ∀ id raw, s.blobs.get id = some raw → IsCopy published id raw
  listed : ∀ id, s.pending.get id ≠ none → ∃ e, (id, e) ∈ s.stored
  copy : ∀ p ∈ s.stored, published p.2 ∧ eventId p.2 = .ok p.1
  kept : ∀ p ∈ s.stored, Acked published s p.1 ∨ Present s p.1

/-- What a process knows before its next step. -/
def Knows (s : Shared) : Pc → Prop
  | .storing id customer e => eventId e = .ok id ∧ customerId e = .ok customer
  | .listing => True
  | .reading id => ∃ e, (id, e) ∈ s.stored
  | .dropping id => Acked published s id
  | .publishing p => IsCopy published p.eventId p.value
  | .awaiting p i =>
    IsCopy published p.eventId p.value ∧ s.messages[i]?.map Message.value = some p.value
  | .burying _ _ => False
  | .removing id => Acked published s id
  | .finished _ => True

variable {published} {s t : Shared} {id : String}

theorem Acked.grows (hgrows : Grows s t) (h : Acked published s id) : Acked published t id := by
  obtain ⟨m, hm, hacked, hcopy⟩ := h
  obtain ⟨i, hi⟩ := List.mem_iff_getElem?.mp hm
  obtain ⟨m', hm', hvalue, hdelivery⟩ := hgrows.messages i m hi
  exact ⟨m', List.mem_iff_getElem?.mpr ⟨i, hm'⟩, hdelivery hacked, hvalue ▸ hcopy⟩

theorem Knows.grows {pc : Pc} (hgrows : Grows s t) (h : Knows published s pc) :
    Knows published t pc := by
  cases pc with
  | storing | listing | publishing | burying | finished => exact h
  | reading id =>
    obtain ⟨e, he⟩ := h
    exact ⟨e, hgrows.stored he⟩
  | dropping id | removing id => exact Acked.grows hgrows h
  | awaiting p i =>
    obtain ⟨hcopy, hmessage⟩ := h
    obtain ⟨m, hm, hvalue⟩ := Option.map_eq_some_iff.mp hmessage
    obtain ⟨m', hm', hvalue', -⟩ := hgrows.messages i m hm
    exact ⟨hcopy, by rw [hm', ← hvalue, ← hvalue']; rfl⟩

/-! ### The Redis pipelines and the broker -/

theorem present_store {j : String} (e : Json) (now : ℤ) (h : j = id ∨ Present s j) :
    Present (s.store id e now) j := by
  unfold Present Shared.store
  dsimp only
  rw [Table.get_set, Table.get_set]
  split_ifs with hj
  · exact ⟨Option.some_ne_none _, Option.some_ne_none _⟩
  · exact h.resolve_left hj

theorem present_remove {j : String} (hj : j ≠ id) (h : Present s j) :
    Present (s.remove id) j := by
  unfold Present Shared.remove
  rw [Table.get_erase_ne _ hj, Table.get_erase_ne _ hj]
  exact h

theorem present_drop {j : String} (hj : j ≠ id) (h : Present s j) :
    Present { s with pending := s.pending.erase id } j := by
  unfold Present
  rw [Table.get_erase_ne _ hj]
  exact h

theorem Keeps.store {e : Json} (now : ℤ) (h : Keeps published s) (he : published e)
    (hid : eventId e = .ok id) : Keeps published (s.store id e now) where
  blob := by
    intro j raw hraw
    have hget : (s.blobs.set id (.dumped e)).get j = some raw := hraw
    rw [Table.get_set] at hget
    split_ifs at hget with hj
    · exact ⟨e, he, hj ▸ hid, (Option.some.inj hget).symm⟩
    · exact h.blob j raw hget
  listed := by
    intro j hj
    have hget : (s.pending.set id now).get j ≠ none := hj
    rw [Table.get_set] at hget
    split_ifs at hget with hjid
    · exact ⟨e, hjid ▸ List.mem_cons_self⟩
    · obtain ⟨e', he'⟩ := h.listed j hget
      exact ⟨e', List.mem_cons_of_mem _ he'⟩
  copy := by
    intro p hp
    rcases List.mem_cons.mp hp with rfl | hp
    · exact ⟨he, hid⟩
    · exact h.copy p hp
  kept := by
    intro p hp
    rcases List.mem_cons.mp hp with rfl | hp
    · exact Or.inr (present_store e now (Or.inl rfl))
    · exact (h.kept p hp).imp (fun hacked => hacked) fun hpresent =>
        present_store e now (Or.inr hpresent)

theorem Keeps.erase {blobs : Table String Blob}
    {pending : Table String ℤ} (h : Keeps published s) (hacked : Acked published s id)
    (hblobs : ∀ j raw, blobs.get j = some raw → s.blobs.get j = some raw)
    (hpending : ∀ j, pending.get j ≠ none → s.pending.get j ≠ none)
    (hother : ∀ j, j ≠ id → Present s j →
      Present { s with blobs := blobs, pending := pending } j) :
    Keeps published { s with blobs := blobs, pending := pending } where
  blob := fun j raw hraw => h.blob j raw (hblobs j raw hraw)
  listed := fun j hj => h.listed j (hpending j hj)
  copy := h.copy
  kept := by
    intro p hp
    by_cases hpid : p.1 = id
    · exact Or.inl (hpid ▸ hacked)
    · exact (h.kept p hp).imp (fun hacked => hacked) (hother p.1 hpid)

theorem get_of_erase {κ ν : Type*} [DecidableEq κ] {t : Table κ ν} {j k : κ} {v : ν}
    (h : (t.erase k).get j = some v) : t.get j = some v := by
  rw [Table.get_erase] at h
  split_ifs at h
  exact h

theorem get_ne_none_of_erase {κ ν : Type*} [DecidableEq κ] {t : Table κ ν} {j k : κ}
    (h : (t.erase k).get j ≠ none) : t.get j ≠ none := by
  obtain ⟨v, hv⟩ := Option.ne_none_iff_exists'.mp h
  rw [get_of_erase hv]
  exact Option.some_ne_none v

theorem Keeps.remove (h : Keeps published s) (hacked : Acked published s id) :
    Keeps published (s.remove id) :=
  h.erase hacked (fun _ _ => get_of_erase) (fun _ => get_ne_none_of_erase) fun _ => present_remove

theorem Keeps.drop (h : Keeps published s) (hacked : Acked published s id) :
    Keeps published { s with pending := s.pending.erase id } :=
  h.erase hacked (fun _ _ hraw => hraw) (fun _ => get_ne_none_of_erase) fun _ => present_drop

theorem Keeps.messages {messages : List Message} (h : Keeps published s)
    (hgrows : Grows s { s with messages := messages }) :
    Keeps published { s with messages := messages } where
  blob := h.blob
  listed := h.listed
  copy := h.copy
  kept := fun p hp => (h.kept p hp).imp (Acked.grows hgrows) fun hpresent => hpresent

/-! ### One step of a process -/

theorem get_of_oldest (h : s.oldest = some id) : s.pending.get id ≠ none := by
  have hmem : id ∈ s.pending.rangeByScore (fun _ => true) 1 := List.mem_of_head? h
  obtain ⟨t, ht, -⟩ := Table.get_of_mem_rangeByScore s.pending hmem
  rw [ht]
  exact Option.some_ne_none t

private theorem knows_flushBlob (hauth : ∀ e, published e → ∃ key, customerId e = .ok (.str key))
    (hkeeps : Keeps published s) (hstored : ∃ e, (id, e) ∈ s.stored) :
    Knows published s (flushBlob id (s.blobs.get id)) := by
  cases hget : s.blobs.get id with
  | none =>
    obtain ⟨e, he⟩ := hstored
    exact (hkeeps.kept _ he).resolve_right fun hpresent => hpresent.2 hget
  | some raw =>
    obtain ⟨e, he, hid, rfl⟩ := hkeeps.blob id raw hget
    obtain ⟨key, hkey⟩ := hauth e he
    have hflush : flushBlob id (some (.dumped e)) = .publishing ⟨id, key, .dumped e⟩ := by
      unfold flushBlob loads
      dsimp only [bind, Except.bind]
      rw [hkey]
      rfl
    rw [hflush]
    exact ⟨e, he, hid, rfl⟩

private theorem redis_keeps {now : ℤ} {pc pc' : Pc}
    (hauth : ∀ e, published e → ∃ key, customerId e = .ok (.str key))
    (hkeeps : Keeps published s) (hknows : Knows published s pc)
    (h : redis s now pc = some (t, pc')) (hstored : ∀ p ∈ t.stored, published p.2) :
    Keeps published t ∧ Knows published t pc' := by
  rcases redis_cases h with ⟨id, customer, e, rfl, rfl, rfl⟩ | ⟨rfl, rfl, rfl⟩ |
    ⟨id, rfl, rfl, rfl⟩ | ⟨id, rfl, rfl, rfl⟩ | ⟨id, raw, rfl, -, -⟩ | ⟨id, rfl, rfl, rfl⟩
  · obtain ⟨hid, hcustomer⟩ := hknows
    have he : published e := hstored (id, e) List.mem_cons_self
    obtain ⟨key, hkey⟩ := hauth e he
    obtain rfl : customer = .str key := Except.ok.inj (hcustomer.symm.trans hkey)
    exact ⟨hkeeps.store now he hid, e, he, hid, rfl⟩
  · refine ⟨hkeeps, ?_⟩
    cases holdest : t.oldest with
    | none => trivial
    | some id => exact hkeeps.listed id (get_of_oldest holdest)
  · exact ⟨hkeeps, knows_flushBlob hauth hkeeps hknows⟩
  · exact ⟨hkeeps.drop hknows, trivial⟩
  · exact hknows.elim
  · exact ⟨hkeeps.remove hknows, trivial⟩

theorem advance_keeps {m : Move} {pc pc' : Pc}
    (hauth : ∀ e, published e → ∃ key, customerId e = .ok (.str key))
    (hkeeps : Keeps published s) (hknows : Knows published s pc)
    (h : advance s m pc = some (t, pc')) (hstored : ∀ p ∈ t.stored, published p.2) :
    Keeps published t ∧ Knows published t pc' := by
  rcases advance_cases h with ⟨now, hredis⟩ | ⟨p, rfl, rfl, rfl⟩ |
    ⟨p, i, msg, rfl, hmsg, hdelivery, rfl, rfl⟩ | ⟨rfl, answer, rfl⟩
  · exact redis_keeps hauth hkeeps hknows hredis hstored
  · refine ⟨hkeeps.messages (grows_send _), hknows, ?_⟩
    rw [List.getElem?_concat_length]
    rfl
  · obtain ⟨hcopy, hmessage⟩ := hknows
    rw [hmsg, Option.map_some, Option.some.injEq] at hmessage
    exact ⟨hkeeps, msg, List.mem_of_getElem? hmsg, hdelivery, hmessage ▸ hcopy⟩
  · exact ⟨hkeeps, trivial⟩

theorem present_of_advance {m : Move} {pc pc' : Pc} (hknows : Knows published s pc)
    (hpresent : Present s id) (hnot : ¬ Acked published s id)
    (h : advance s m pc = some (t, pc')) : Present t id := by
  have hne : ∀ j, Acked published s j → id ≠ j := fun j hacked heq => hnot (heq ▸ hacked)
  rcases advance_cases h with ⟨now, hredis⟩ | ⟨p, -, -, rfl⟩ | ⟨-, -, -, -, -, -, rfl, -⟩ | ⟨rfl, -⟩
  · rcases redis_cases hredis with ⟨j, customer, e, rfl, rfl, -⟩ | ⟨-, rfl, -⟩ | ⟨j, -, rfl, -⟩ |
      ⟨j, rfl, rfl, -⟩ | ⟨j, raw, rfl, -, -⟩ | ⟨j, rfl, rfl, -⟩
    · exact present_store e now (Or.inr hpresent)
    · exact hpresent
    · exact hpresent
    · exact present_drop (hne j hknows) hpresent
    · exact hknows.elim
    · exact present_remove (hne j hknows) hpresent
  · exact hpresent
  · exact hpresent
  · exact hpresent

/-! ### Runs -/

structure Sound (published : Json → Prop) (w : System) : Prop where
  shared : Keeps published w.shared
  processes : ∀ pc ∈ w.processes, Knows published w.shared pc

theorem sound_empty : Sound published {} where
  shared := {
    blob := fun _ _ h => by cases h
    listed := fun _ h => absurd rfl h
    copy := fun _ h => by cases h
    kept := fun _ h => by cases h }
  processes := fun _ h => by cases h

theorem Sound.add {w : System} {pc : Pc} (h : Sound published w)
    (hknows : Knows published w.shared pc) :
    Sound published { w with processes := w.processes ++ [pc] } where
  shared := h.shared
  processes := by
    intro pc' hpc'
    rcases List.mem_append.mp hpc' with hpc' | hpc'
    · exact h.processes pc' hpc'
    · exact List.mem_singleton.mp hpc' ▸ hknows

private theorem knows_publishEnvelope (e : Json) : Knows published s (publishEnvelope e) := by
  unfold publishEnvelope
  split
  · exact ⟨by assumption, by assumption⟩
  · trivial

theorem step_sound {w w' : System} {ev : Event}
    (hauth : ∀ e, published e → ∃ key, customerId e = .ok (.str key))
    (hstored : ∀ p ∈ w'.shared.stored, published p.2) (h : Sound published w)
    (hstep : step w ev = some w') : Sound published w' := by
  cases ev with
  | publish e =>
    cases hstep
    exact h.add (knows_publishEnvelope e)
  | flush =>
    cases hstep
    exact h.add trivial
  | move i m =>
    obtain ⟨pc, s', pc', hpc, hadvance, rfl⟩ := step_move hstep
    obtain ⟨hkeeps, hknows⟩ :=
      advance_keeps hauth h.shared (h.processes pc hpc) hadvance hstored
    refine ⟨hkeeps, fun q hq => ?_⟩
    rcases List.mem_or_eq_of_mem_set hq with hq | rfl
    · exact (h.processes q hq).grows (grows_advance hadvance)
    · exact hknows
  | deliver i accepted =>
    obtain ⟨m, hm, hflight, rfl⟩ := step_deliver hstep
    have hgrows := grows_settle accepted hm hflight
    exact ⟨h.shared.messages hgrows, fun pc hpc => (h.processes pc hpc).grows hgrows⟩

theorem run_sound {w w' : System} {events : List Event}
    (hauth : ∀ e, published e → ∃ key, customerId e = .ok (.str key))
    (hstored : ∀ p ∈ w'.shared.stored, published p.2) (h : Sound published w)
    (hrun : run step w events = some w') : Sound published w' := by
  induction events generalizing w with
  | nil => exact Option.some.inj hrun ▸ h
  | cons ev events ih =>
    obtain ⟨u, hu, hrest⟩ := run_cons_eq_some.mp hrun
    have hsofar : ∀ p ∈ u.shared.stored, published p.2 := fun p hp =>
      hstored p ((grows_run hrest).stored hp)
    exact ih (step_sound hauth hsofar h hu) hrest

theorem present_of_step {w w' : System} {ev : Event} (h : Sound published w)
    (hstep : step w ev = some w') (hpresent : Present w.shared id)
    (hnot : ¬ Acked published w.shared id) : Present w'.shared id := by
  cases ev with
  | publish e =>
    cases hstep
    exact hpresent
  | flush =>
    cases hstep
    exact hpresent
  | move i m =>
    obtain ⟨pc, s', pc', hpc, hadvance, rfl⟩ := step_move hstep
    exact present_of_advance (h.processes pc hpc) hpresent hnot hadvance
  | deliver i accepted =>
    obtain ⟨m, -, -, rfl⟩ := step_deliver hstep
    exact hpresent

end Invariant

/-- The store step of a call lists its event id, with the envelope under it. -/
def Stores (w : System) : Prop :=
  ∀ (i : ℕ) (id : String) (customer e : Json) (now : ℤ) (w' : System),
    w.processes[i]? = some (.storing id customer e) → step w (.move i (.redis now)) = some w' →
      (id, e) ∈ w'.shared.stored ∧ w'.shared.pending.get id = some now ∧
        w'.shared.blobs.get id = some (.dumped e)

theorem stores (w : System) : Stores w := by
  intro i id customer e now w' hpc hstep
  obtain ⟨pc, hpc', hrest⟩ := Option.bind_eq_some_iff.mp hstep
  obtain ⟨⟨s, pc'⟩, hadvance, hsome⟩ := Option.bind_eq_some_iff.mp hrest
  obtain rfl : Pc.storing id customer e = pc := Option.some.inj (hpc.symm.trans hpc')
  obtain ⟨rfl, -⟩ := Prod.mk.inj (Option.some.inj hadvance)
  rw [← Option.some.inj hsome]
  exact ⟨List.mem_cons_self, Table.get_set_self .., Table.get_set_self ..⟩

/-- An envelope that was stored is acknowledged or waits in the outbox, and as long as it is not
acknowledged no step takes its listing or its blob away. -/
theorem outbox_loses_nothing {w : System} {events : List Event}
    (hrun : run step {} events = some w)
    (hauth : ∀ p ∈ w.shared.stored, ∃ key, customerId p.2 = .ok (.str key))
    (hsame : ∀ p ∈ w.shared.stored, ∀ q ∈ w.shared.stored, p.1 = q.1 →
      payload p.2 = payload q.2) :
    Stores w ∧ ∀ p ∈ w.shared.stored,
      (PayloadAcked w.shared (payload p.2) ∨ Present w.shared p.1) ∧
      (¬ PayloadAcked w.shared (payload p.2) →
        ∀ ev w', step w ev = some w' → Present w'.shared p.1) := by
  have hsound : Sound (fun e => ∃ id, (id, e) ∈ w.shared.stored) w :=
    run_sound (fun e ⟨id, he⟩ => hauth (id, e) he) (fun p hp => ⟨p.1, hp⟩) sound_empty hrun
  refine ⟨stores w, fun p hp => ?_⟩
  have hpayload : Acked (fun e => ∃ id, (id, e) ∈ w.shared.stored) w.shared p.1 →
      PayloadAcked w.shared (payload p.2) := by
    rintro ⟨m, hm, hacked, e, ⟨id, he⟩, hid, hvalue⟩
    have hids : id = p.1 := Except.ok.inj ((hsound.shared.copy _ he).2.symm.trans hid)
    exact ⟨m, hm, hacked, e, hvalue, hsame _ he _ hp hids⟩
  have hkept := (hsound.shared.kept p hp).imp_left hpayload
  refine ⟨hkept, fun hnot ev w' hstep => ?_⟩
  exact present_of_step hsound hstep (hkept.resolve_left hnot) fun hacked => hnot (hpayload hacked)

def sampleEnvelope (receivedAt : ℤ) : Json :=
  .obj [("payload", .obj [("eventId", .str "res:1"), ("inputTokens", .num 7)]),
    ("auth", .obj [("customerId", .str "acme")]), ("receivedAt", .num receivedAt)]

/-- Two workers meet a request that stores the event a second time: one of them publishes and
removes the first copy, the other one drops the listing of the second. -/
def crossedWorkers : List Event :=
  [.publish (sampleEnvelope 0), .move 0 (.redis 0), .move 0 .crash,
    .flush, .flush, .move 1 (.redis 1), .move 2 (.redis 1), .move 1 (.redis 1),
    .move 1 (.produce none), .deliver 0 true, .move 1 .wake, .move 1 (.redis 2),
    .move 2 (.redis 3), .publish (sampleEnvelope 4), .move 3 (.redis 4), .move 2 (.redis 5)]

private theorem crossedWorkers_runs : (run step {} crossedWorkers).isSome = true := by
  decide +kernel

private theorem crossedWorkers_stored :
    ((run step {} crossedWorkers).get crossedWorkers_runs).shared.stored =
      [("res:1", sampleEnvelope 4), ("res:1", sampleEnvelope 0)] := by
  with_unfolding_all rfl

theorem crossedWorkers_lose_nothing : ∃ w, run step {} crossedWorkers = some w ∧
    w.shared.pending.get "res:1" = none ∧
    ∀ p ∈ w.shared.stored,
      (PayloadAcked w.shared (payload p.2) ∨ Present w.shared p.1) ∧
      (¬ PayloadAcked w.shared (payload p.2) →
        ∀ ev w', step w ev = some w' → Present w'.shared p.1) := by
  have htwo : ∀ p ∈ ((run step {} crossedWorkers).get crossedWorkers_runs).shared.stored,
      p.2 = sampleEnvelope 4 ∨ p.2 = sampleEnvelope 0 := by
    intro p hp
    rw [crossedWorkers_stored] at hp
    simp only [List.mem_cons, List.not_mem_nil, or_false] at hp
    exact hp.imp (congrArg Prod.snd) (congrArg Prod.snd)
  refine ⟨_, (Option.some_get crossedWorkers_runs).symm, by decide +kernel,
    (outbox_loses_nothing (Option.some_get crossedWorkers_runs).symm ?_ ?_).2⟩
  · intro p hp
    rcases htwo p hp with h | h <;> rw [h] <;> exact ⟨"acme", rfl⟩
  · intro p hp q hq _
    rcases htwo p hp with h | h <;> rcases htwo q hq with h' | h' <;> rw [h, h'] <;> rfl

end FluxMeter.Gateway.Outbox
