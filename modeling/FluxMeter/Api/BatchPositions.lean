import FluxMeter.Api.IngestBatch

/-! The positions of a batch: every item has the result at its own place, and an item that shares its
event id with no other has the result that it has when it is sent alone. -/
namespace FluxMeter.Api
open Collections FluxMeter.Custody FluxMeter.Wire

theorem filterMap_range {α : Type*} {f : ℕ → Option α} {n : ℕ} (h : ∀ i < n, (f i).isSome) :
    ((List.range n).filterMap f).length = n ∧
      ∀ i < n, ((List.range n).filterMap f)[i]? = f i := by
  induction n with
  | zero => exact ⟨rfl, fun i hi => absurd hi (Nat.not_lt_zero i)⟩
  | succ n ih =>
    obtain ⟨hlength, hget⟩ := ih fun i hi => h i (Nat.lt_succ_of_lt hi)
    obtain ⟨x, hx⟩ := Option.isSome_iff_exists.mp (h n (Nat.lt_succ_self n))
    have hlast : [n].filterMap f = [x] := by simp [hx]
    rw [List.range_succ, List.filterMap_append, hlast]
    refine ⟨by rw [List.length_append, hlength, List.length_singleton], fun i hi => ?_⟩
    rcases Nat.lt_succ_iff_lt_or_eq.mp hi with hlt | rfl
    · rw [List.getElem?_append_left (by rw [hlength]; exact hlt), hget i hlt]
    · rw [List.getElem?_append_right hlength.le, hlength, Nat.sub_self, hx]
      rfl

namespace Server
variable {S : Server} {o : Outside} {provided : Option String} {items : List Dict}
  {s : IdentityStore}

/-! ### Items -/

/-- What is not handed to Custody is rejected, with its own id. -/
theorem rejected_of_screen {uuid : String} {raw : Dict} {x : ItemResult}
    (h : S.screen provided uuid raw = .error x) : x.status = .rejected ∧ x.renamed = x := by
  have hrejection : ∃ eventId message, x = .rejection eventId message := by
    unfold screen at h
    split at h
    · exact ⟨_, _, (Except.error.inj h).symm⟩
    · dsimp only at h
      split at h
      · exact ⟨_, _, (Except.error.inj h).symm⟩
      · split at h
        · exact ⟨_, _, (Except.error.inj h).symm⟩
        · cases h
  obtain ⟨eventId, message, rfl⟩ := hrejection
  exact ⟨rfl, rfl⟩

private theorem eventDict_of_screen {uuid : String} {raw event : Dict}
    (h : S.screen provided uuid raw = .ok event) :
    ∃ (e : IngestEvent) (eventId : String), event = e.eventDict eventId := by
  unfold screen at h
  split at h
  · cases h
  · dsimp only at h
    split at h
    · cases h
    · split at h
      · cases h
      · exact ⟨_, _, (Except.ok.inj h).symm⟩

/-- An event that is handed to Custody is well formed when its id is not empty, and raises there
otherwise. -/
theorem wellFormed_of_screen {uuid : String} {raw event : Dict}
    (h : S.screen provided uuid raw = .ok event) :
    event.get "eventId" = some (.str (eventIdOf event)) ∧
      (eventIdOf event ≠ "" → WellFormed event) := by
  obtain ⟨e, eventId, rfl⟩ := eventDict_of_screen h
  have hid := e.get_eventDict eventId "eventId"
  rw [if_pos rfl] at hid
  have hids : eventIdOf (e.eventDict eventId) = e.eventId.getD eventId := by
    unfold eventIdOf
    rw [hid]
  refine ⟨by rw [hids, hid], fun hne => ⟨⟨_, hid, by rw [← hids]; exact hne⟩, ?_, ?_⟩⟩
  · refine ⟨e.customerId, ?_⟩
    rw [e.get_eventDict, if_neg (by decide)]
    rfl
  · intro value hvalue
    rw [e.get_eventDict, if_neg (by decide)] at hvalue
    have htimestamp : e.modelDump.get "timestamp" = e.timestamp.map .num := by
      simp [IngestEvent.modelDump, Dict.get_append, Dict.get_cons, Dict.get_opt]
    rw [htimestamp] at hvalue
    obtain ⟨n, -, rfl⟩ := Option.map_eq_some_iff.mp hvalue
    exact ⟨n, rfl⟩

/-! ### Places -/

theorem places_screened : (S.screened o provided items).map Prod.fst = List.range items.length := by
  unfold screened
  rw [List.map_map]
  have hplace : (Prod.fst ∘ fun p : Dict × ℕ => (p.2, S.screen provided (o.uuid p.2) p.1)) =
      Prod.snd := rfl
  rw [hplace, List.zipIdx_map_snd, List.range_eq_range']

theorem mem_screened {i : ℕ} {x : Except ItemResult Dict} :
    (i, x) ∈ S.screened o provided items ↔
      ∃ raw, items[i]? = some raw ∧ S.screen provided (o.uuid i) raw = x := by
  unfold screened
  constructor
  · intro h
    obtain ⟨⟨raw, k⟩, hmem, heq⟩ := List.mem_map.mp h
    rw [List.mem_zipIdx_iff_getElem?] at hmem
    obtain ⟨rfl, rfl⟩ := Prod.mk.inj heq
    exact ⟨raw, hmem, rfl⟩
  · rintro ⟨raw, hraw, rfl⟩
    refine List.mem_map.mpr ⟨(raw, i), ?_, rfl⟩
    rw [List.mem_zipIdx_iff_getElem?]
    exact hraw

theorem lookup_screened {i : ℕ} {raw : Dict} (hraw : items[i]? = some raw) :
    (S.screened o provided items).lookup i = some (S.screen provided (o.uuid i) raw) := by
  rw [Table.lookup_eq_some_iff_mem (by rw [places_screened]; exact List.nodup_range)]
  exact mem_screened.mpr ⟨raw, hraw, rfl⟩

/-- What goes to Custody passes the checks, and comes from its own place. -/
theorem mem_prepared {i : ℕ} {event : Dict} :
    (i, event) ∈ S.prepared o provided items ↔
      ∃ raw, items[i]? = some raw ∧ S.screen provided (o.uuid i) raw = .ok event := by
  rw [← mem_screened]
  unfold prepared
  rw [List.mem_filterMap]
  constructor
  · rintro ⟨⟨k, x⟩, hmem, heq⟩
    cases x with
    | error x => cases heq
    | ok event' =>
      obtain ⟨rfl, rfl⟩ := Prod.mk.inj (Option.some.inj heq)
      exact hmem
  · exact fun hmem => ⟨_, hmem, rfl⟩

theorem nodup_places : ((S.prepared o provided items).map Prod.fst).Nodup := by
  have hsub : ((S.prepared o provided items).map Prod.fst).Sublist
      ((S.screened o provided items).map Prod.fst) := by
    unfold prepared
    generalize S.screened o provided items = l
    induction l with
    | nil => exact List.Sublist.refl _
    | cons p l ih =>
      obtain ⟨i, x⟩ := p
      cases x with
      | error x => exact ih.cons _
      | ok event => exact ih.cons_cons _
  rw [places_screened] at hsub
  exact hsub.nodup List.nodup_range

section Merge
variable {custody : List ItemResult}

theorem merged_ok (hlength : custody.length = (S.prepared o provided items).length) {i j : ℕ}
    {event : Dict} (hj : (S.prepared o provided items)[j]? = some (i, event)) :
    merged (S.screened o provided items)
      (((S.prepared o provided items).map Prod.fst).zip custody) i = custody[j]? := by
  obtain ⟨hlt, -⟩ := List.getElem?_eq_some_iff.mp hj
  have hx : custody[j]? = some custody[j] := List.getElem?_eq_getElem (by omega)
  have hkeys : ((((S.prepared o provided items).map Prod.fst).zip custody).map Prod.fst).Nodup := by
    rw [List.map_fst_zip (by rw [List.length_map, hlength])]
    exact nodup_places
  have hlookup : (((S.prepared o provided items).map Prod.fst).zip custody).lookup i =
      some custody[j] := by
    rw [Table.lookup_eq_some_iff_mem hkeys]
    refine List.mem_iff_getElem?.mpr ⟨j, ?_⟩
    rw [List.getElem?_zip_eq_some, List.getElem?_map, hj]
    exact ⟨rfl, hx⟩
  unfold merged
  rw [hlookup, hx]

theorem merged_error {i : ℕ} {raw : Dict} {x : ItemResult} (hraw : items[i]? = some raw)
    (hx : S.screen provided (o.uuid i) raw = .error x) :
    merged (S.screened o provided items)
      (((S.prepared o provided items).map Prod.fst).zip custody) i = some x := by
  have hnone : (((S.prepared o provided items).map Prod.fst).zip custody).lookup i = none := by
    rw [List.lookup_eq_none_iff]
    rintro ⟨k, y⟩ hmem
    by_contra hk
    obtain rfl : i = k := by simpa using hk
    obtain ⟨⟨k, event⟩, hevent, rfl⟩ := List.mem_map.mp (List.of_mem_zip hmem).1
    obtain ⟨raw', hraw', hok⟩ := mem_prepared.mp hevent
    rw [hraw] at hraw'
    rw [← Option.some.inj hraw', hx] at hok
    cases hok
  unfold merged
  rw [hnone, lookup_screened hraw, hx]

/-- Every item has the result of its own place. -/
theorem getElem?_finalResults (hlength : custody.length = (S.prepared o provided items).length) :
    (S.finalResults o provided items custody).length = items.length ∧
      (∀ (i : ℕ) (raw : Dict) (x : ItemResult), items[i]? = some raw →
        S.screen provided (o.uuid i) raw = .error x →
        (S.finalResults o provided items custody)[i]? = some x.renamed) ∧
      ∀ (i j : ℕ) (event : Dict), (S.prepared o provided items)[j]? = some (i, event) →
        (S.finalResults o provided items custody)[i]? = (custody[j]?).map .renamed := by
  have hmerged : ∀ i < items.length, (merged (S.screened o provided items)
      (((S.prepared o provided items).map Prod.fst).zip custody) i).isSome := by
    intro i hi
    have hraw : items[i]? = some items[i] := List.getElem?_eq_getElem hi
    cases hscreen : S.screen provided (o.uuid i) items[i] with
    | error x =>
      rw [merged_error hraw hscreen]
      rfl
    | ok event =>
      obtain ⟨j, hj⟩ := List.mem_iff_getElem?.mp (mem_prepared.mpr ⟨_, hraw, hscreen⟩)
      obtain ⟨hlt, -⟩ := List.getElem?_eq_some_iff.mp hj
      rw [merged_ok hlength hj, List.getElem?_eq_getElem (by omega)]
      rfl
  obtain ⟨hcount, hget⟩ := filterMap_range hmerged
  unfold finalResults
  refine ⟨by rw [List.length_map, hcount], fun i raw x hraw hx => ?_, fun i j event hj => ?_⟩
  · obtain ⟨hlt, -⟩ := List.getElem?_eq_some_iff.mp hraw
    rw [List.getElem?_map, hget i hlt, merged_error hraw hx]
    rfl
  · obtain ⟨raw, hraw, -⟩ := mem_prepared.mp (List.mem_of_getElem? hj)
    obtain ⟨hlt, -⟩ := List.getElem?_eq_some_iff.mp hraw
    rw [List.getElem?_map, hget i hlt, merged_ok hlength hj]

end Merge

/-! ### Custody -/

/-- The events for Custody. -/
def events (S : Server) (o : Outside) (provided : Option String) (items : List Dict) : List Dict :=
  (S.prepared o provided items).map Prod.snd

/-- What Custody reads for the items. -/
def around (S : Server) (o : Outside) (provided : Option String) (items : List Dict) :
    Surroundings :=
  o.surroundings ((S.prepared o provided items).map Prod.fst)

/-- Every event for Custody has an id. -/
def Named (S : Server) (o : Outside) (provided : Option String) (items : List Dict) : Prop :=
  ∀ p ∈ S.prepared o provided items, eventIdOf p.2 ≠ ""

theorem getElem?_events {i j : ℕ} {event : Dict}
    (hj : (S.prepared o provided items)[j]? = some (i, event)) :
    (S.events o provided items)[j]? = some event := by
  unfold events
  rw [List.getElem?_map, hj]
  rfl

theorem getElem?_places {i j : ℕ} {event : Dict}
    (hj : (S.prepared o provided items)[j]? = some (i, event)) :
    ((S.prepared o provided items).map Prod.fst)[j]? = some i := by
  rw [List.getElem?_map, hj]
  rfl

theorem exists_place {j : ℕ} {event : Dict} (hj : (S.events o provided items)[j]? = some event) :
    ∃ i, (S.prepared o provided items)[j]? = some (i, event) := by
  unfold events at hj
  rw [List.getElem?_map] at hj
  obtain ⟨⟨i, event⟩, hp, rfl⟩ := Option.map_eq_some_iff.mp hj
  exact ⟨i, hp⟩

theorem wellFormed_events (h : S.Named o provided items) :
    ∀ event ∈ S.events o provided items, WellFormed event := by
  intro event hevent
  obtain ⟨⟨i, event⟩, hp, rfl⟩ := List.mem_map.mp hevent
  obtain ⟨raw, -, hscreen⟩ := mem_prepared.mp hp
  exact (wellFormed_of_screen hscreen).2 (h _ hp)

theorem raised_of_unnamed (h : ¬ S.Named o provided items) :
    S.custodyResults o provided (S.prepared o provided items) s = none := by
  obtain ⟨⟨i, event⟩, hp, hempty⟩ : ∃ p ∈ S.prepared o provided items, eventIdOf p.2 = "" := by
    simpa [Named] using h
  obtain ⟨raw, -, hscreen⟩ := mem_prepared.mp hp
  have hid := (wellFormed_of_screen hscreen).1
  have hevent : event ∈ S.events o provided items := List.mem_map.mpr ⟨_, hp, rfl⟩
  have hprepare : (S.custody provided).prepareAll (S.around o provided items)
      (S.events o provided items) = none := by
    rw [Option.eq_none_iff_forall_ne_some]
    intro prepared hall
    have hsome := mapM_isSome.mp (Option.isSome_iff_exists.mpr ⟨_, hall⟩)
    obtain ⟨j, hj⟩ := List.mem_iff_getElem?.mp hevent
    have hone := hsome (event, j) (by rw [List.mem_zipIdx_iff_getElem?]; exact hj)
    unfold TokenEventCustody.prepare preparePayload resolveCustodyEventId at hone
    rw [hid, hempty] at hone
    simp [TokenEventCustody.withoutReservation, given, truthy] at hone
  unfold custodyResults
  rw [if_neg (List.ne_nil_of_mem hp)]
  unfold TokenEventCustody.acceptManyReplied
  unfold events around at hprepare
  rw [hprepare]

/-- No two event ids of the batch have one digest. -/
def DigestsDiffer (S : Server) (o : Outside) (provided : Option String) (items : List Dict) : Prop :=
  (S.custody provided).DigestsDiffer (S.events o provided items)

/-- The event at a place of the call of Custody. -/
def eventAt (S : Server) (o : Outside) (provided : Option String) (items : List Dict) (j : ℕ)
    (event : Dict) : Prepared :=
  (S.custody provided).preparedAt (S.around o provided items) (event, j)

/-- The messages of the batch that are published before that of an event. -/
def messagesBefore (S : Server) (o : Outside) (provided : Option String) (items : List Dict)
    (s : IdentityStore) (p : Prepared) : List Message :=
  (S.custody provided).messagesBefore (S.around o provided items) (S.events o provided items) s p

/-- The outcomes of the messages of the batch. -/
def fateIn (S : Server) (o : Outside) (provided : Option String) (items : List Dict)
    (s : IdentityStore) (p : Prepared) (m : Message) : Option PublishError :=
  o.broker.fateAfter (S.messagesBefore o provided items s p) m

/-- A `RedisError` ends the call of Custody: of the pipeline of the claims, or of the pipeline of the
releases where the message of some event is refused. -/
def Interrupted (S : Server) (o : Outside) (provided : Option String) (items : List Dict)
    (s : IdentityStore) : Prop :=
  o.claimsRaise = true ∨ o.releaseRaises = true ∧
    ∃ j event, (S.events o provided items)[j]? = some event ∧
      TokenEventCustody.First (S.events o provided items) j ∧
      (S.custody provided).Refused (S.around o provided items) (S.fateIn o provided items s) s
        (S.eventAt o provided items j event)

section Custody
variable (hnamed : S.Named o provided items) (hsha : S.DigestsDiffer o provided items)
include hnamed hsha

theorem ending_interrupted (hne : S.prepared o provided items ≠ [])
    (h : S.Interrupted o provided items s) :
    S.custodyResults o provided (S.prepared o provided items) s =
      some ((S.prepared o provided items).map fun p => .failure (eventIdOf p.2)) := by
  obtain ⟨c, messages, hpublishes⟩ := TokenEventCustody.publishes_wellFormed
    (C := S.custody provided) (w := S.around o provided items) (wellFormed_events hnamed) s
  have hunique : ((S.custody provided).deduplicated (S.around o provided items)
      (S.events o provided items)).unique ≠ [] := by
    obtain ⟨p, rest, hp⟩ := List.exists_cons_of_ne_nil hne
    have hfirst : (S.events o provided items)[0]? = some p.2 := by
      unfold events
      rw [hp]
      rfl
    exact List.ne_nil_of_mem (TokenEventCustody.unique_of_first hfirst fun _ k _ _ _ _ => Nat.zero_le k)
  have hending : (S.custody provided).acceptManyReplied (S.around o provided items) o.claimsRaise
      o.releaseRaises (S.events o provided items) s = .redisError := by
    rw [TokenEventCustody.acceptManyReplied_eq (wellFormed_events hnamed) hpublishes]
    rcases h with hclaims | ⟨hrelease, hrefused⟩
    · rw [if_pos (by simpa [hclaims] using hunique)]
    · have hfailed := (TokenEventCustody.failed_iff hpublishes hsha
        (TokenEventCustody.fated_broker hpublishes hsha rfl)).mpr hrefused
      split_ifs with hclaims hfails
      · rfl
      · rfl
      · exact absurd (by simpa [hrelease] using hfailed) hfails
  unfold custodyResults
  unfold around events at hending
  rw [if_neg hne, hending]

/-- Without such an error each event has its own id in its result, and one with an id of its own has
its verdict. -/
theorem ending_returned (hne : S.prepared o provided items ≠ [])
    (h : ¬ S.Interrupted o provided items s) :
    ∃ results : List Result, S.custodyResults o provided (S.prepared o provided items) s =
        some (results.map .ofCustody) ∧
      results.length = (S.prepared o provided items).length ∧
      ∀ (j i : ℕ) (event : Dict), (S.prepared o provided items)[j]? = some (i, event) →
        ∃ r, results[j]? = some r ∧ r.eventId = eventIdOf event ∧
          (TokenEventCustody.Unshared (S.events o provided items) j →
            (S.custody provided).verdict (S.around o provided items) (S.fateIn o provided items s) s
              (S.eventAt o provided items j event) = some r) := by
  obtain ⟨c, messages, hpublishes⟩ := TokenEventCustody.publishes_wellFormed
    (C := S.custody provided) (w := S.around o provided items) (wellFormed_events hnamed) s
  have hending : (S.custody provided).acceptManyReplied (S.around o provided items) o.claimsRaise
      o.releaseRaises (S.events o provided items) s =
        .ofBatch (TokenEventCustody.endingOf (S.events o provided items).length
          ((S.custody provided).settled (S.around o provided items) (S.events o provided items) s c
            messages).2) := by
    unfold Interrupted at h
    rw [not_or, not_and] at h
    rw [TokenEventCustody.acceptManyReplied_eq (wellFormed_events hnamed) hpublishes]
    have hclaims : o.claimsRaise = false := by simpa using h.1
    rw [hclaims, Bool.false_and, if_neg Bool.false_ne_true]
    refine if_neg fun hfails => ?_
    rw [Bool.and_eq_true] at hfails
    refine h.2 hfails.1 ((TokenEventCustody.failed_iff hpublishes hsha
      (TokenEventCustody.fated_broker hpublishes hsha rfl)).mp ?_)
    simpa using hfails.2
  have houtcomes : ((S.around o provided items).broker messages).outcomes.length =
      c.owned.length := by
    rw [((S.around o provided items).broker messages).length_outcomes,
      (TokenEventCustody.messages_of_owned hpublishes).length_eq]
  have hanswered : ∀ j < (S.events o provided items).length,
      ((S.custody provided).settled (S.around o provided items) (S.events o provided items) s c
        messages).2 j ≠ none := by
    intro j hj
    have hp := (TokenEventCustody.mem_prepared (C := S.custody provided)
      (w := S.around o provided items)).mpr ⟨j, _, List.getElem?_eq_getElem hj, rfl⟩
    exact TokenEventCustody.settleBatch_complete hpublishes houtcomes hp
  obtain ⟨results, hreturned, hlength, hget⟩ := TokenEventCustody.endingOf_complete hanswered
  rw [hreturned] at hending
  refine ⟨results, ?_, hlength.trans (List.length_map _), fun j i event hj => ?_⟩
  · unfold custodyResults
    unfold around events at hending
    rw [if_neg hne, hending]
    rfl
  · have hevent := getElem?_events hj
    obtain ⟨hlt, -⟩ := List.getElem?_eq_some_iff.mp hevent
    obtain ⟨r, hr⟩ := Option.ne_none_iff_exists'.mp (hanswered j hlt)
    refine ⟨r, (hget j hlt).trans hr, ?_, fun hunshared => ?_⟩
    · obtain ⟨p, hp, hindex, hid, -⟩ := TokenEventCustody.settled_faithful hpublishes j r hr
      obtain ⟨k, event', hk, rfl⟩ := TokenEventCustody.mem_prepared.mp hp
      obtain rfl : k = j := hindex
      obtain rfl : event' = event := Option.some.inj (hk.symm.trans hevent)
      exact hid.trans (TokenEventCustody.eventId_preparedAt
        (w := S.around o provided items) (event', k))
    · obtain ⟨v, hv, hsettled⟩ :=
        TokenEventCustody.settled_unshared hpublishes hsha
          (TokenEventCustody.fated_broker hpublishes hsha rfl) hevent hunshared
      rw [hr] at hsettled
      rw [Option.some.inj hsettled]
      exact hv

end Custody

/-! ### The answer -/

end Server

namespace BatchResponse

@[simp] theorem results_ofResults (results : List ItemResult) : (ofResults results).results = results := by
  unfold ofResults
  dsimp only
  split_ifs <;> rfl

theorem accepted_of_ofResults {results : List ItemResult} (h : (ofResults results).statusCode = 202) :
    ∀ x ∈ results, x.isAccepted = true := by
  unfold ofResults at h
  dsimp only at h
  have hzero : results.countP (fun x => !x.isAccepted) = 0 := by
    by_contra hne
    rw [if_neg hne] at h
    split_ifs at h <;> cases h
  intro x hx
  simpa using List.countP_eq_zero.mp hzero x hx

end BatchResponse

namespace Server
variable {S : Server} {o : Outside} {provided : Option String} {items : List Dict}
  {s : IdentityStore}

/-- The id of an item in its result. -/
def itemId (S : Server) (provided : Option String) (uuid : String) (raw : Dict) : String :=
  match S.screen provided uuid raw with
  | .error x => x.eventId
  | .ok event => eventIdOf event

/-- No other event for Custody has the event id of the one of the item. -/
def Unshared (S : Server) (o : Outside) (provided : Option String) (items : List Dict) (i : ℕ) :
    Prop :=
  ∀ event k event', (i, event) ∈ S.prepared o provided items →
    (k, event') ∈ S.prepared o provided items → eventIdOf event' = eventIdOf event → k = i

theorem unshared_events {i j : ℕ} {event : Dict} (h : S.Unshared o provided items i)
    (hj : (S.prepared o provided items)[j]? = some (i, event)) :
    TokenEventCustody.Unshared (S.events o provided items) j := by
  intro event₁ k event' he₁ hk hid
  obtain ⟨i', hi'⟩ := exists_place hk
  obtain rfl : event = event₁ := Option.some.inj ((getElem?_events hj).symm.trans he₁)
  have hsame : i' = i := h event i' event' (List.mem_of_getElem? hj) (List.mem_of_getElem? hi') hid
  have hk' := getElem?_places hi'
  have hj' := getElem?_places hj
  obtain ⟨hlt, -⟩ := List.getElem?_eq_some_iff.mp hk'
  exact (List.getElem?_inj hlt nodup_places).mp (by rw [hk', hj', hsame])

/-- What Custody tells the items: each its own id, all a failure where the call is interrupted, and its
verdict otherwise to an item that shares its id with no other. -/
structure Told (S : Server) (o : Outside) (provided : Option String) (items : List Dict)
    (s : IdentityStore) (custody : List ItemResult) : Prop where
  length : custody.length = (S.prepared o provided items).length
  told : ∀ (j i : ℕ) (event : Dict), (S.prepared o provided items)[j]? = some (i, event) →
    ∃ x, custody[j]? = some x ∧ x.eventId = eventIdOf event ∧
      (S.Interrupted o provided items s → x = .failure (eventIdOf event)) ∧
      (¬ S.Interrupted o provided items s → S.Unshared o provided items i →
        ∃ v, (S.custody provided).verdict (S.around o provided items) (S.fateIn o provided items s) s
            (S.eventAt o provided items j event) = some v ∧ x = .ofCustody v)

private theorem custodyResults_told (hnamed : S.Named o provided items)
    (hsha : S.DigestsDiffer o provided items) : ∃ custody,
      S.custodyResults o provided (S.prepared o provided items) s = some custody ∧
        S.Told o provided items s custody := by
  by_cases hnil : S.prepared o provided items = []
  · refine ⟨[], ?_, ⟨by rw [hnil]; rfl, fun j i event hj => ?_⟩⟩
    · unfold custodyResults
      rw [if_pos hnil]
    · rw [hnil] at hj
      cases hj
  · by_cases hinterrupted : S.Interrupted o provided items s
    · refine ⟨_, ending_interrupted hnamed hsha hnil hinterrupted,
        ⟨List.length_map _, fun j i event hj => ?_⟩⟩
      refine ⟨.failure (eventIdOf event), ?_, rfl, fun _ => rfl, fun h => absurd hinterrupted h⟩
      rw [List.getElem?_map, hj]
      rfl
    · obtain ⟨results, hresults, hlength, hget⟩ := ending_returned hnamed hsha hnil hinterrupted
      refine ⟨_, hresults, ⟨by rw [List.length_map, hlength], fun j i event hj => ?_⟩⟩
      obtain ⟨r, hr, hid, hverdict⟩ := hget j i event hj
      refine ⟨.ofCustody r, ?_, hid, fun h => absurd h hinterrupted, fun _ hunshared => ?_⟩
      · rw [List.getElem?_map, hr]
        rfl
      · exact ⟨r, hverdict (unshared_events hunshared hj), rfl⟩

/-- A request that is not refused as a whole and has no event without an id is answered. -/
theorem ingestItems_told (s : IdentityStore)
    (hkey : requireApiKey S.auth S.py.sha256 S.keys provided = none)
    (hfew : items.length ≤ 1000) (hnamed : S.Named o provided items)
    (hsha : S.DigestsDiffer o provided items) : ∃ custody,
      S.ingestItems o provided items s =
          .answered (.ofResults (S.finalResults o provided items custody)) ∧
        S.Told o provided items s custody := by
  obtain ⟨custody, hcustody, htold⟩ := custodyResults_told (s := s) hnamed hsha
  refine ⟨custody, ?_, htold⟩
  unfold ingestItems
  rw [hkey]
  dsimp only
  rw [if_neg (by omega), hcustody]

/-! ### One item alone -/

/-- What Custody reads for the item at a place alone, and its event there. -/
def soleEvent (S : Server) (o : Outside) (provided : Option String) (i : ℕ) (event : Dict) : Prepared :=
  (S.custody provided).preparedAt ((o.alone i).surroundings []) (event, 0)

/-- The outcome of a message that is published alone. -/
def fateAlone (o : Outside) (_ : Prepared) (m : Message) : Option PublishError :=
  o.broker.fateAfter [] m

/-- The message of the item is refused, when it is sent alone. -/
def Refused (S : Server) (o : Outside) (provided : Option String) (s : IdentityStore) (i : ℕ)
    (event : Dict) : Prop :=
  (S.custody provided).Refused ((o.alone i).surroundings []) (fateAlone o) s
    (S.soleEvent o provided i event)

/-- The item is told a failure, when it is sent alone. -/
def FailsAlone (S : Server) (o : Outside) (provided : Option String) (s : IdentityStore) (i : ℕ)
    (event : Dict) : Prop :=
  (S.custody provided).Failing ((o.alone i).surroundings []) (fateAlone o) o.releaseRaises s
    (S.soleEvent o provided i event)

/-- There is no room for the message of the item, when it is sent alone. -/
def CrowdedAlone (S : Server) (o : Outside) (provided : Option String) (i : ℕ) (event : Dict) : Prop :=
  ∃ sent, (S.custody provided).sending ((o.alone i).surroundings []) (S.soleEvent o provided i event) =
    some sent ∧ o.broker.fateAfter [] sent.2 = some .overloaded

/-- The event is new to Custody. -/
def Claims (S : Server) (o : Outside) (provided : Option String) (s : IdentityStore) (event : Dict) :
    Prop :=
  (S.custody provided).claimOf o.claimClock s (eventIdOf event, (S.custody provided).hashOf event) =
    .owner

theorem alike_alone {i j : ℕ} {event : Dict}
    (hj : (S.prepared o provided items)[j]? = some (i, event)) :
    TokenEventCustody.Alike ((o.alone i).surroundings []) (S.around o provided items) 0 j := by
  have hplace : ((S.prepared o provided items).map Prod.fst).getD j 0 = i := by
    rw [List.getD_eq_getElem?_getD, getElem?_places hj]
    rfl
  unfold around
  constructor
  · exact congrArg o.prepareClock hplace.symm
  · rfl
  · exact congrArg o.receivedClock hplace.symm
  · exact congrArg o.traceId hplace.symm
  · rfl

theorem prepared_alone_ok {i : ℕ} {raw event : Dict}
    (h : S.screen provided (o.uuid i) raw = .ok event) :
    S.prepared (o.alone i) provided [raw] = [(0, event)] := by
  have hscreen : S.screen provided ((o.alone i).uuid 0) raw = .ok event := h
  simp [prepared, screened, hscreen, Except.toOption]

theorem prepared_alone_error {i : ℕ} {raw : Dict} {x : ItemResult}
    (h : S.screen provided (o.uuid i) raw = .error x) :
    S.prepared (o.alone i) provided [raw] = [] := by
  have hscreen : S.screen provided ((o.alone i).uuid 0) raw = .error x := h
  simp [prepared, screened, hscreen, Except.toOption]

theorem failing_iff {C : TokenEventCustody} {w : Surroundings}
    {fate : Prepared → Message → Option PublishError} {releaseRaises : Bool} {p : Prepared} {v : Result}
    (hv : C.verdict w fate s p = some v) :
    C.Failing w fate releaseRaises s p ↔
      (releaseRaises = true ∧ C.Refused w fate s p) ∨
        (ItemResult.ofCustody v).renamed = .failure p.eventId := by
  unfold TokenEventCustody.verdict at hv
  unfold TokenEventCustody.Failing TokenEventCustody.Refused
  cases hclaim : C.claimOf w.claimClock s p.identity with
  | owner =>
    rw [hclaim] at hv
    obtain ⟨⟨owned, m⟩, hsending, rfl⟩ := Option.map_eq_some_iff.mp hv
    rw [hsending]
    dsimp only
    have hid : owned.eventId = p.eventId := by
      rw [← TokenEventCustody.prepared_of_sending hsending]
    cases hfate : fate p m with
    | some error =>
      cases error <;> simp [errorResult, hfate, ItemResult.ofCustody, ItemResult.renamed,
        ItemResult.failure]
    | none =>
      cases hfinalizes : C.finalizes w with
      | true =>
        cases hsuspicious : owned.suspicious <;>
          simp [hfate, TokenEventCustody.finalResult, TokenEventCustody.statusOf, hsuspicious,
            ItemResult.ofCustody, ItemResult.renamed, ItemResult.failure]
      | false =>
        simp [hfate, TokenEventCustody.finalResult, errorResult, hid, ItemResult.ofCustody,
          ItemResult.renamed, ItemResult.failure]
  | same | pending | conflict | uncertain =>
    rw [hclaim] at hv
    rw [← Option.some.inj hv]
    simp [ItemResult.ofCustody, ItemResult.renamed, ItemResult.failure]

theorem overloaded_of_renamed {C : TokenEventCustody} {w : Surroundings}
    {fate : Prepared → Message → Option PublishError} {p : Prepared} {v : Result}
    (hv : C.verdict w fate s p = some v)
    (h : (ItemResult.ofCustody v).renamed.status = .custody .overloaded) :
    ∃ sent, C.sending w p = some sent ∧ fate p sent.2 = some .overloaded := by
  unfold TokenEventCustody.verdict at hv
  cases hclaim : C.claimOf w.claimClock s p.identity with
  | owner =>
    rw [hclaim] at hv
    obtain ⟨⟨owned, m⟩, hsending, rfl⟩ := Option.map_eq_some_iff.mp hv
    refine ⟨(owned, m), hsending, ?_⟩
    cases hfate : fate p m with
    | some error =>
      cases error <;> simp [errorResult, hfate, ItemResult.ofCustody, ItemResult.renamed] at h ⊢
    | none =>
      cases hfinalizes : C.finalizes w <;> cases hsuspicious : owned.suspicious <;>
        simp [hfate, hfinalizes, TokenEventCustody.finalResult, TokenEventCustody.statusOf,
          hsuspicious, errorResult, ItemResult.ofCustody, ItemResult.renamed] at h
  | same | pending | conflict | uncertain =>
    rw [hclaim] at hv
    rw [← Option.some.inj hv] at h
    simp [ItemResult.ofCustody, ItemResult.renamed] at h

/-- In a batch of one event its message is published alone. -/
theorem fateIn_alone {i : ℕ} {raw event : Dict} (h : S.screen provided (o.uuid i) raw = .ok event)
    (m : Message) : S.fateIn (o.alone i) provided [raw] s
      (S.eventAt (o.alone i) provided [raw] 0 event) m = o.broker.fateAfter [] m := by
  have hevents : S.events (o.alone i) provided [raw] = [event] := by
    unfold events
    rw [prepared_alone_ok h]
    rfl
  unfold fateIn messagesBefore
  rw [hevents, TokenEventCustody.messagesBefore_singleton event rfl]
  rfl

theorem interrupted_alone {i : ℕ} {raw event : Dict}
    (h : S.screen provided (o.uuid i) raw = .ok event) :
    S.Interrupted (o.alone i) provided [raw] s ↔
      o.claimsRaise = true ∨ o.releaseRaises = true ∧ S.Refused o provided s i event := by
  have hevents : S.events (o.alone i) provided [raw] = [event] := by
    unfold events
    rw [prepared_alone_ok h]
    rfl
  have hrefused : (S.custody provided).Refused (S.around (o.alone i) provided [raw])
      (S.fateIn (o.alone i) provided [raw] s) s (S.eventAt (o.alone i) provided [raw] 0 event) ↔
      S.Refused o provided s i event :=
    (TokenEventCustody.refused_alike ⟨rfl, rfl, rfl, rfl, rfl⟩
      fun _ sent _ => (fateIn_alone h sent.2).symm).symm
  unfold Interrupted
  rw [hevents]
  refine or_congr Iff.rfl (and_congr Iff.rfl ?_)
  constructor
  · rintro ⟨j, event', hj, -, hj'⟩
    cases j with
    | zero =>
      obtain rfl := Option.some.inj hj
      exact hrefused.mp hj'
    | succ j => cases hj
  · exact fun hsole => ⟨0, event, rfl, fun _ _ _ _ _ _ => Nat.zero_le _, hrefused.mpr hsole⟩

private theorem eventId_soleEvent (i : ℕ) (event : Dict) :
    (S.soleEvent o provided i event).eventId = eventIdOf event :=
  TokenEventCustody.eventId_preparedAt (w := (o.alone i).surroundings []) (event, 0)

/-- The answer to an accepted item alone. -/
theorem alone_ok (hkey : requireApiKey S.auth S.py.sha256 S.keys provided = none) {i : ℕ}
    {raw event : Dict} (hscreen : S.screen provided (o.uuid i) raw = .ok event)
    (hne : eventIdOf event ≠ "") :
    ∃ response x, S.ingestItems (o.alone i) provided [raw] s = .answered response ∧
      response.results[0]? = some (ItemResult.renamed x) ∧
      ((o.claimsRaise = true ∨ o.releaseRaises = true ∧ S.Refused o provided s i event) →
        x = .failure (eventIdOf event)) ∧
      (¬ (o.claimsRaise = true ∨ o.releaseRaises = true ∧ S.Refused o provided s i event) →
        ∃ v, (S.custody provided).verdict ((o.alone i).surroundings []) (fateAlone o) s
            (S.soleEvent o provided i event) = some v ∧ x = .ofCustody v) ∧
      (o.claimsRaise = false →
        (x.renamed = .failure (eventIdOf event) ↔ S.FailsAlone o provided s i event)) := by
  have hprepared := prepared_alone_ok (o := o) hscreen
  have hnamed : S.Named (o.alone i) provided [raw] := by
    intro p hp
    rw [hprepared, List.mem_singleton] at hp
    rw [hp]
    exact hne
  have hsha : S.DigestsDiffer (o.alone i) provided [raw] := by
    intro e he e' he' _
    unfold events at he he'
    rw [hprepared, List.map_singleton, List.mem_singleton] at he he'
    rw [he, he']
  have hunshared : S.Unshared (o.alone i) provided [raw] 0 := by
    intro event' k event'' _ hk _
    rw [hprepared, List.mem_singleton] at hk
    exact (Prod.mk.inj hk).1
  obtain ⟨custody, hanswer, hlength, htold⟩ :=
    ingestItems_told s hkey (List.length_singleton.trans_le (by decide)) hnamed hsha
  have hfirst : (S.prepared (o.alone i) provided [raw])[0]? = some (0, event) := by
    rw [hprepared]
    rfl
  obtain ⟨x, hx, -, hfailure, hverdict⟩ := htold 0 0 event hfirst
  have hsame : (S.custody provided).verdict ((o.alone i).surroundings []) (fateAlone o) s
      (S.soleEvent o provided i event) =
      (S.custody provided).verdict (S.around (o.alone i) provided [raw])
        (S.fateIn (o.alone i) provided [raw] s) s (S.eventAt (o.alone i) provided [raw] 0 event) :=
    TokenEventCustody.verdict_alike ⟨rfl, rfl, rfl, rfl, rfl⟩
      fun _ sent _ => (fateIn_alone hscreen sent.2).symm
  have hfree : ¬ (o.claimsRaise = true ∨ o.releaseRaises = true ∧ S.Refused o provided s i event) →
      ∃ v, (S.custody provided).verdict ((o.alone i).surroundings []) (fateAlone o) s
        (S.soleEvent o provided i event) = some v ∧ x = .ofCustody v := by
    intro h
    obtain ⟨v, hv, hxv⟩ := hverdict (fun hinterrupted => h ((interrupted_alone hscreen).mp hinterrupted))
      hunshared
    exact ⟨v, hsame.trans hv, hxv⟩
  refine ⟨_, x, hanswer, ?_, fun h => hfailure ((interrupted_alone hscreen).mpr h), hfree,
    fun hclaims => ?_⟩
  · rw [BatchResponse.results_ofResults,
      (getElem?_finalResults hlength).2.2 0 0 event hfirst, hx]
    rfl
  · by_cases h : o.releaseRaises = true ∧ S.Refused o provided s i event
    · rw [hfailure ((interrupted_alone hscreen).mpr (Or.inr h))]
      refine iff_of_true rfl (Or.inr ⟨h.2.1, ?_⟩)
      obtain ⟨-, sent, hsent, hrefused⟩ := h.2
      refine ⟨sent, hsent, ?_⟩
      rcases hrefused with hfate | hfate
      · rw [hfate]
        exact h.1
      · rw [hfate]
        trivial
    · have hsole : ¬ (o.claimsRaise = true ∨
          o.releaseRaises = true ∧ S.Refused o provided s i event) := by
        rintro (hraise | hboth)
        · rw [hclaims] at hraise
          cases hraise
        · exact h hboth
      obtain ⟨v, hv, rfl⟩ := hfree hsole
      have hiff : S.FailsAlone o provided s i event ↔ _ := failing_iff hv
      rw [eventId_soleEvent] at hiff
      exact ⟨fun hrenamed => hiff.mpr (Or.inr hrenamed), fun hfails => (hiff.mp hfails).resolve_left h⟩

theorem alone_error (hkey : requireApiKey S.auth S.py.sha256 S.keys provided = none) {i : ℕ}
    {raw : Dict} {x : ItemResult} (hscreen : S.screen provided (o.uuid i) raw = .error x) :
    ∃ response, S.ingestItems (o.alone i) provided [raw] s = .answered response ∧
      response.results[0]? = some x := by
  have hprepared := prepared_alone_error (o := o) hscreen
  have hnamed : S.Named (o.alone i) provided [raw] := by
    intro p hp
    rw [hprepared] at hp
    cases hp
  have hsha : S.DigestsDiffer (o.alone i) provided [raw] := by
    intro e he
    unfold events at he
    rw [hprepared] at he
    cases he
  obtain ⟨custody, hanswer, hlength, -⟩ :=
    ingestItems_told s hkey (List.length_singleton.trans_le (by decide)) hnamed hsha
  refine ⟨_, hanswer, ?_⟩
  rw [BatchResponse.results_ofResults, (getElem?_finalResults hlength).2.1 0 raw x rfl hscreen,
    (rejected_of_screen hscreen).2]

/-! ### Positions -/

/-- What the answer to a batch owes to its items. -/
structure Positions (S : Server) (o : Outside) (provided : Option String) (items : List Dict)
    (s : IdentityStore) (response : BatchResponse) : Prop where
  length : response.results.length = items.length
  ordered : ∀ (i : ℕ) (raw : Dict), items[i]? = some raw →
    ∃ x, response.results[i]? = some x ∧ x.eventId = S.itemId provided (o.uuid i) raw
  rejected : ∀ (i : ℕ) (raw : Dict) (x : ItemResult), items[i]? = some raw →
    S.screen provided (o.uuid i) raw = .error x →
    response.results[i]? = some x ∧ x.status = .rejected
  /-- Only items that pass the checks go to Custody. -/
  passed : ∀ (i : ℕ) (event : Dict), (i, event) ∈ S.prepared o provided items →
    ∃ raw, items[i]? = some raw ∧ S.screen provided (o.uuid i) raw = .ok event
  alone : ∀ (i : ℕ) (raw : Dict), items[i]? = some raw → S.Unshared o provided items i →
    ∃ response', S.ingestBatch (o.alone i) provided [.obj raw] s = .answered response' ∧
      response'.results[0]? = response.results[i]?
  accepted : response.statusCode = 202 → ∀ x ∈ response.results, x.isAccepted = true

/-- The request is answered as a batch of independent items. -/
def Independent (S : Server) (o : Outside) (provided : Option String) (body : List Json)
    (s : IdentityStore) : Prop :=
  ∃ items response, body.mapM asDict = some items ∧
    S.ingestBatch o provided body s = .answered response ∧ S.Positions o provided items s response

/-- The key is accepted, there are 1000 items at most, no item that passes the checks has an empty
event id, and what an item with an id of its own suffers from the others it suffers alone too. -/
structure OrderlyItems (S : Server) (o : Outside) (provided : Option String) (items : List Dict)
    (s : IdentityStore) : Prop where
  key : requireApiKey S.auth S.py.sha256 S.keys provided = none
  few : items.length ≤ 1000
  named : S.Named o provided items
  /-- Where Redis fails the release of a refused message, it would have been told a failure. -/
  released : o.claimsRaise = false → S.Interrupted o provided items s →
    ∀ (i : ℕ) (event : Dict), (i, event) ∈ S.prepared o provided items →
      S.Unshared o provided items i → S.FailsAlone o provided s i event
  /-- So it would where a message before its own is late. -/
  punctual : ¬ S.Interrupted o provided items s →
    ∀ (j i : ℕ) (event : Dict), (S.prepared o provided items)[j]? = some (i, event) →
      S.Unshared o provided items i → S.Claims o provided s event →
      o.broker.Overdue (S.messagesBefore o provided items s (S.eventAt o provided items j event)) →
      S.FailsAlone o provided s i event
  /-- Where the messages before its own leave no room, there would have been none. -/
  roomy : ¬ S.Interrupted o provided items s →
    ∀ (j i : ℕ) (event : Dict), (S.prepared o provided items)[j]? = some (i, event) →
      S.Unshared o provided items i → S.Claims o provided s event →
      ¬ o.broker.Overdue (S.messagesBefore o provided items s (S.eventAt o provided items j event)) →
      o.broker.Exhausted (S.messagesBefore o provided items s (S.eventAt o provided items j event)) →
      S.CrowdedAlone o provided i event

/-- Every item is an object, and the items are orderly. -/
def Orderly (S : Server) (o : Outside) (provided : Option String) (body : List Json)
    (s : IdentityStore) : Prop :=
  ∃ items, body.mapM asDict = some items ∧ S.OrderlyItems o provided items s

theorem eventId_renamed (x : ItemResult) : x.renamed.eventId = x.eventId := by
  unfold ItemResult.renamed
  split_ifs <;> rfl

theorem fate_alone {i j : ℕ} {event : Dict}
    (hroomy : o.broker.Exhausted
        (S.messagesBefore o provided items s (S.eventAt o provided items j event)) →
      S.CrowdedAlone o provided i event)
    (hpunctual : ¬ o.broker.Overdue
      (S.messagesBefore o provided items s (S.eventAt o provided items j event)))
    {sent : Owned × Message}
    (hsent : (S.custody provided).sending ((o.alone i).surroundings [])
      (S.soleEvent o provided i event) = some sent) :
    S.fateIn o provided items s (S.eventAt o provided items j event) sent.2 =
      fateAlone o (S.soleEvent o provided i event) sent.2 := by
  unfold fateIn fateAlone
  by_cases hroom : o.broker.Exhausted
      (S.messagesBefore o provided items s (S.eventAt o provided items j event))
  · obtain ⟨sent', hsent', hcrowded⟩ := hroomy hroom
    obtain rfl : sent = sent' := Option.some.inj (hsent.symm.trans hsent')
    rw [Broker.fateAfter_exhausted hpunctual hroom, hcrowded]
  · exact Broker.fateAfter_free hpunctual hroom sent.2

theorem interrupted_of_refused {i j : ℕ} {event : Dict}
    (hj : (S.prepared o provided items)[j]? = some (i, event))
    (hunshared : S.Unshared o provided items i) (hrelease : o.releaseRaises = true)
    (h : (S.custody provided).Refused (S.around o provided items) (S.fateIn o provided items s) s
      (S.eventAt o provided items j event)) : S.Interrupted o provided items s := by
  refine Or.inr ⟨hrelease, j, event, getElem?_events hj, ?_, h⟩
  exact fun e k e' he hk hid => (unshared_events hunshared hj e k e' he hk hid).ge

theorem claimOf_eventAt {j : ℕ} {event : Dict} :
    (S.custody provided).claimOf (S.around o provided items).claimClock s
        (S.eventAt o provided items j event).identity = .owner ↔ S.Claims o provided s event := by
  unfold eventAt
  rw [TokenEventCustody.identity_preparedAt]
  rfl

/-- Behind a late message a new event is told a failure. -/
theorem renamed_of_overdue {j : ℕ} {event : Dict} {v : Result}
    (hclaims : S.Claims o provided s event)
    (hlate : o.broker.Overdue
      (S.messagesBefore o provided items s (S.eventAt o provided items j event)))
    (hv : (S.custody provided).verdict (S.around o provided items) (S.fateIn o provided items s) s
      (S.eventAt o provided items j event) = some v) :
    (ItemResult.ofCustody v).renamed = .failure (eventIdOf event) := by
  unfold TokenEventCustody.verdict at hv
  rw [claimOf_eventAt.mpr hclaims] at hv
  obtain ⟨sent, -, rfl⟩ := Option.map_eq_some_iff.mp hv
  unfold fateIn
  rw [Broker.fateAfter_overdue hlate]
  unfold eventAt
  rw [TokenEventCustody.eventId_preparedAt]
  rfl

theorem renamed_of_exhausted {j : ℕ} {event : Dict} {v : Result}
    (hclaims : S.Claims o provided s event)
    (hpunctual : ¬ o.broker.Overdue
      (S.messagesBefore o provided items s (S.eventAt o provided items j event)))
    (hroom : o.broker.Exhausted
      (S.messagesBefore o provided items s (S.eventAt o provided items j event)))
    (hv : (S.custody provided).verdict (S.around o provided items) (S.fateIn o provided items s) s
      (S.eventAt o provided items j event) = some v) :
    (ItemResult.ofCustody v).renamed.status = .custody .overloaded := by
  unfold TokenEventCustody.verdict at hv
  rw [claimOf_eventAt.mpr hclaims] at hv
  obtain ⟨sent, -, rfl⟩ := Option.map_eq_some_iff.mp hv
  unfold fateIn
  rw [Broker.fateAfter_exhausted hpunctual hroom]
  rfl

section Alone
variable (h : S.OrderlyItems o provided items s) {custody : List ItemResult}
  (htold : S.Told o provided items s custody) {i j : ℕ} {raw event : Dict}
  (hj : (S.prepared o provided items)[j]? = some (i, event))
  (hscreen : S.screen provided (o.uuid i) raw = .ok event)
  (hunshared : S.Unshared o provided items i)
include h htold hj hscreen hunshared

/-- An item with an id of its own has the result here that it has alone: a failure that it is also told
alone, or the same verdict. -/
private theorem result_alone :
    ∃ response, S.ingestItems (o.alone i) provided [raw] s = .answered response ∧
      response.results[0]? = (custody[j]?).map .renamed := by
  have hp := List.mem_of_getElem? hj
  obtain ⟨x, hx, -, hfailure, hverdict⟩ := htold.told j i event hj
  obtain ⟨response, x', hresponse, hresult, hfailure', hverdict', hfails⟩ :=
    alone_ok (s := s) h.key hscreen (h.named _ hp)
  refine ⟨response, hresponse, ?_⟩
  rw [hresult, hx]
  refine congrArg some ?_
  by_cases hinterrupted : S.Interrupted o provided items s
  · rw [hfailure hinterrupted]
    cases hclaims : o.claimsRaise with
    | true => rw [hfailure' (Or.inl hclaims)]
    | false => exact (hfails hclaims).mpr (h.released hclaims hinterrupted i event hp hunshared)
  · obtain ⟨v, hv, rfl⟩ := hverdict hinterrupted hunshared
    have hclaims : o.claimsRaise = false := by
      rw [← Bool.not_eq_true]
      exact fun hraise => hinterrupted (Or.inl hraise)
    by_cases hlate : S.Claims o provided s event ∧ o.broker.Overdue
        (S.messagesBefore o provided items s (S.eventAt o provided items j event))
    · rw [renamed_of_overdue hlate.1 hlate.2 hv]
      exact (hfails hclaims).mpr (h.punctual hinterrupted j i event hj hunshared hlate.1 hlate.2)
    · have hfate : S.Claims o provided s event → ∀ sent, (S.custody provided).sending
          ((o.alone i).surroundings []) (S.soleEvent o provided i event) = some sent →
          S.fateIn o provided items s (S.eventAt o provided items j event) sent.2 =
            fateAlone o (S.soleEvent o provided i event) sent.2 := by
        intro hnew sent hsent
        have hpunctual := fun hoverdue => hlate ⟨hnew, hoverdue⟩
        exact fate_alone (h.roomy hinterrupted j i event hj hunshared hnew hpunctual) hpunctual hsent
      have hsole : ¬ (o.claimsRaise = true ∨
          o.releaseRaises = true ∧ S.Refused o provided s i event) := by
        rintro (hraise | ⟨hrelease, hrefused⟩)
        · exact hinterrupted (Or.inl hraise)
        · exact hinterrupted (interrupted_of_refused hj hunshared hrelease
            ((TokenEventCustody.refused_alike (alike_alone hj) hfate).mpr hrefused))
      obtain ⟨v', hv', rfl⟩ := hverdict' hsole
      have hsame : (S.custody provided).verdict (S.around o provided items)
          (S.fateIn o provided items s) s (S.eventAt o provided items j event) = some v' :=
        (TokenEventCustody.verdict_alike (alike_alone hj) hfate).trans hv'
      rw [hv] at hsame
      rw [Option.some.inj hsame]

end Alone

theorem positions_of_orderly (h : S.OrderlyItems o provided items s)
    (hsha : S.DigestsDiffer o provided items) :
    ∃ response, S.ingestItems o provided items s = .answered response ∧
      S.Positions o provided items s response := by
  obtain ⟨custody, hanswer, hcustody, htold⟩ := ingestItems_told s h.key h.few h.named hsha
  obtain ⟨hlength, herror, hok⟩ := getElem?_finalResults hcustody
  refine ⟨_, hanswer, ?_⟩
  constructor
  case length => rw [BatchResponse.results_ofResults, hlength]
  case ordered =>
    intro i raw hraw
    rw [BatchResponse.results_ofResults]
    unfold itemId
    cases hscreen : S.screen provided (o.uuid i) raw with
    | error x => exact ⟨_, herror i raw x hraw hscreen, eventId_renamed x⟩
    | ok event =>
      obtain ⟨j, hj⟩ := List.mem_iff_getElem?.mp (mem_prepared.mpr ⟨raw, hraw, hscreen⟩)
      obtain ⟨x, hx, hid, -⟩ := htold j i event hj
      exact ⟨x.renamed, by rw [hok i j event hj, hx]; rfl, (eventId_renamed x).trans hid⟩
  case rejected =>
    intro i raw x hraw hscreen
    obtain ⟨hstatus, hrenamed⟩ := rejected_of_screen hscreen
    rw [BatchResponse.results_ofResults, herror i raw x hraw hscreen, hrenamed]
    exact ⟨rfl, hstatus⟩
  case passed => exact fun i event hp => mem_prepared.mp hp
  case alone =>
    intro i raw hraw hunshared
    rw [BatchResponse.results_ofResults]
    cases hscreen : S.screen provided (o.uuid i) raw with
    | error x =>
      obtain ⟨response, hresponse, hresult⟩ := alone_error (s := s) h.key hscreen
      refine ⟨response, hresponse, ?_⟩
      rw [hresult, herror i raw x hraw hscreen, (rejected_of_screen hscreen).2]
    | ok event =>
      obtain ⟨j, hj⟩ := List.mem_iff_getElem?.mp (mem_prepared.mpr ⟨raw, hraw, hscreen⟩)
      obtain ⟨response, hresponse, hresult⟩ :=
        result_alone h ⟨hcustody, htold⟩ hj hscreen hunshared
      refine ⟨response, hresponse, ?_⟩
      rw [hresult, hok i j event hj]
  case accepted =>
    intro hstatus
    rw [BatchResponse.results_ofResults]
    exact BatchResponse.accepted_of_ofResults hstatus

/-- A request that is answered is not refused as a whole, and has no event without an id. -/
theorem of_answered {response : BatchResponse}
    (hanswer : S.ingestItems o provided items s = .answered response) :
    requireApiKey S.auth S.py.sha256 S.keys provided = none ∧ items.length ≤ 1000 ∧
      S.Named o provided items := by
  unfold ingestItems at hanswer
  have hkey : requireApiKey S.auth S.py.sha256 S.keys provided = none := by
    by_contra hne
    obtain ⟨status, hstatus⟩ := Option.ne_none_iff_exists'.mp hne
    rw [hstatus] at hanswer
    cases hanswer
  rw [hkey] at hanswer
  dsimp only at hanswer
  have hfew : items.length ≤ 1000 := by
    by_contra hmany
    rw [if_pos (by omega)] at hanswer
    cases hanswer
  rw [if_neg (by omega)] at hanswer
  refine ⟨hkey, hfew, ?_⟩
  by_contra hunnamed
  rw [raised_of_unnamed hunnamed] at hanswer
  cases hanswer

section Answered
variable {response : BatchResponse}
  (hanswer : S.ingestItems o provided items s = .answered response)
  (h : S.Positions o provided items s response) (hsha : S.DigestsDiffer o provided items)
include hanswer h hsha

/-- The two answers to an item with an id of its own: what Custody tells it in the batch, and alone. -/
theorem answers_of_positions {i j : ℕ} {event : Dict}
    (hj : (S.prepared o provided items)[j]? = some (i, event))
    (hunshared : S.Unshared o provided items i) :
    ∃ x : ItemResult,
      (S.Interrupted o provided items s → x = .failure (eventIdOf event)) ∧
      (¬ S.Interrupted o provided items s →
        ∃ v, (S.custody provided).verdict (S.around o provided items) (S.fateIn o provided items s) s
            (S.eventAt o provided items j event) = some v ∧ x = .ofCustody v) ∧
      (o.claimsRaise = false →
        (x.renamed = .failure (eventIdOf event) ↔ S.FailsAlone o provided s i event)) ∧
      (x.renamed.status = .custody .overloaded → S.CrowdedAlone o provided i event) := by
  obtain ⟨hkey, hfew, hnamed⟩ := of_answered hanswer
  have hp := List.mem_of_getElem? hj
  obtain ⟨raw, hraw, hscreen⟩ := mem_prepared.mp hp
  obtain ⟨custody, hanswer', hcustody, htold⟩ := ingestItems_told s hkey hfew hnamed hsha
  obtain ⟨x, hx, -, hfailure, hverdict⟩ := htold j i event hj
  obtain ⟨response', x', hresponse', hresult', hfailure', hverdict', hfails⟩ :=
    alone_ok (s := s) hkey hscreen (hnamed _ hp)
  obtain ⟨response'', hresponse'', hsame⟩ := h.alone i raw hraw hunshared
  have hrenamed : x'.renamed = x.renamed := by
    have hunique : response'' = response' :=
      BatchAnswer.answered.inj (hresponse''.symm.trans hresponse')
    rw [hanswer'] at hanswer
    rw [hunique, hresult', ← BatchAnswer.answered.inj hanswer, BatchResponse.results_ofResults,
      (getElem?_finalResults hcustody).2.2 i j event hj, hx] at hsame
    exact Option.some.inj hsame
  refine ⟨x, hfailure, fun hinterrupted => hverdict hinterrupted hunshared, ?_, ?_⟩
  · rw [← hrenamed]
    exact hfails
  · rw [← hrenamed]
    intro hoverloaded
    by_cases hsole : o.claimsRaise = true ∨ o.releaseRaises = true ∧ S.Refused o provided s i event
    · rw [hfailure' hsole] at hoverloaded
      cases hoverloaded
    · obtain ⟨v', hv', rfl⟩ := hverdict' hsole
      exact overloaded_of_renamed hv' hoverloaded

private theorem orderly_of_positions : S.OrderlyItems o provided items s := by
  obtain ⟨hkey, hfew, hnamed⟩ := of_answered hanswer
  constructor
  case key => exact hkey
  case few => exact hfew
  case named => exact hnamed
  case released =>
    intro hclaims hinterrupted i event hp hunshared
    obtain ⟨j, hj⟩ := List.mem_iff_getElem?.mp hp
    obtain ⟨x, hfailure, -, hfails, -⟩ := answers_of_positions hanswer h hsha hj hunshared
    refine (hfails hclaims).mp ?_
    rw [hfailure hinterrupted]
    rfl
  case punctual =>
    intro hinterrupted j i event hj hunshared hnew hlate
    obtain ⟨x, -, hverdict, hfails, -⟩ := answers_of_positions hanswer h hsha hj hunshared
    have hclaims : o.claimsRaise = false := by
      rw [← Bool.not_eq_true]
      exact fun hraise => hinterrupted (Or.inl hraise)
    obtain ⟨v, hv, rfl⟩ := hverdict hinterrupted
    exact (hfails hclaims).mp (renamed_of_overdue hnew hlate hv)
  case roomy =>
    intro hinterrupted j i event hj hunshared hnew hpunctual hroom
    obtain ⟨x, -, hverdict, -, hcrowded⟩ := answers_of_positions hanswer h hsha hj hunshared
    obtain ⟨v, hv, rfl⟩ := hverdict hinterrupted
    exact hcrowded (renamed_of_exhausted hnew hpunctual hroom hv)

end Answered

/-- The defaults of the server. -/
def byDefault : Server where
  pydantic := .strict
  py := .ofEventId
  auth := {}
  keys := {}
  allowedDims := defaultDims
  settings := .defaults
  config := { topic := "token-events", quarantineTopic := "token-events-quarantine" }

/-- The item of a customer with an event id. -/
def itemOf (customerId eventId : String) : Dict :=
  [("customerId", .str customerId), ("modelId", .str "m"), ("eventId", .str eventId)]

/-- An item without the required `modelId`. -/
def itemWithoutModel : Dict := [("customerId", .str "c1"), ("eventId", .str "e2")]

end Server

/-- Every message is delivered at once, and Redis answers. -/
def Outside.healthy : Outside where
  uuid i := "uuid-" ++ toString i
  uuid_ne i := by simp
  prepareClock _ := 1700000000000
  receivedClock _ := 1700000000000
  traceId _ := "trace"
  claimClock := 1700000000
  broker :=
    { room := { slots := 20000, queue := 100000 }
      timeoutSeconds := 5
      handle := fun _ => .queued (some (0, true)) }
  rememberClock _ := 1700000000
  rememberReply _ := .ok
  markClock := 1700000000
  markReply := .ok

/-- The messages of `c2` are refused, and Redis does not answer the releases. -/
def Outside.releasing : Outside :=
  { healthy with
    broker :=
      { healthy.broker with
        handle := fun m => if m.key = "c2" then .raises else .queued (some (0, true)) }
    releaseRaises := true }

/-- The messages of `c1` are never reported. -/
def Outside.waiting : Outside :=
  { healthy with
    broker :=
      { healthy.broker with
        handle := fun m => .queued (if m.key = "c1" then none else some (0, true)) } }

/-- One permit is free, and no message is delivered before the second loop. -/
def Outside.crowded : Outside :=
  { healthy with broker := { healthy.broker with room := { slots := 1, queue := 100000 } } }

def BatchAnswer.results : BatchAnswer → List ItemResult
  | .answered response => response.results
  | _ => []

namespace Server

/-- An item with an id of its own that has another result alone depends on the others. -/
theorem not_independent_of {S : Server} {o : Outside} {provided : Option String} {items : List Dict}
    {s : IdentityStore} {raw : Dict} {i : ℕ} (hraw : items[i]? = some raw)
    (hunshared : S.Unshared o provided items i)
    (h : (S.ingestBatch (o.alone i) provided [.obj raw] s).results[0]? ≠
      (S.ingestBatch o provided (items.map .obj) s).results[i]?) :
    ¬ S.Independent o provided (items.map .obj) s := by
  rintro ⟨items', response, hitems, hanswer, hpositions⟩
  have hsame : (items.map Json.obj).mapM asDict = some items := by
    rw [List.mapM_map]
    exact (List.mapM_pure (m := Option)).trans (congrArg some (List.map_id items))
  obtain rfl : items = items' := Option.some.inj (hsame.symm.trans hitems)
  obtain ⟨response', hanswer', hresult⟩ := hpositions.alone i raw hraw hunshared
  rw [hanswer, hanswer'] at h
  exact h hresult

/-- An event of each of two customers. -/
def twoItems : List Dict := [itemOf "c1" "e1", itemOf "c2" "e2"]

theorem unshared_twoItems (o : Outside) (i : ℕ) : byDefault.Unshared o none twoItems i := by
  have hevents : byDefault.prepared o none twoItems =
      [(0, IngestEvent.eventDict { customerId := "c1", modelId := "m", eventId := some "e1" } "e1"),
        (1, IngestEvent.eventDict { customerId := "c2", modelId := "m", eventId := some "e2" } "e2")] :=
    rfl
  intro event k event' hevent hk hid
  rw [hevents, List.mem_cons, List.mem_singleton] at hevent hk
  obtain ⟨rfl, rfl⟩ | ⟨rfl, rfl⟩ := hevent.imp Prod.mk.inj Prod.mk.inj
  · obtain ⟨hplace, -⟩ | ⟨-, rfl⟩ := hk.imp Prod.mk.inj Prod.mk.inj
    · exact hplace
    · exact absurd hid (by decide)
  · obtain ⟨-, rfl⟩ | ⟨hplace, -⟩ := hk.imp Prod.mk.inj Prod.mk.inj
    · exact absurd hid (by decide)
    · exact hplace

end Server

end FluxMeter.Api
