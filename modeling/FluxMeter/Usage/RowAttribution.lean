import FluxMeter.Usage.ModelUsageRows

/-! The rows of a model after a run of the sinks: one for each customer with usage of it, with what
the windows of that customer wrote. -/
namespace FluxMeter.Usage
open FluxMeter.Budget FluxMeter.Keys FluxMeter.Model Collections Collections.Glob

/-- There is no key of a tenant and none of a customer yet. -/
def Unmetered (s : Keyspace) : Prop :=
  ∀ key, headOf key ∈ [some 't', some 'c'] → SameAt key s.usage {}

/-- The tenants and the customers of the step have no colon, and its model is not read as `m`: it is
`m` or does not end as the keys of `m` do. -/
def SinkStep.Unmixed (m : String) : SinkStep → Prop
  | .window agg => NoColon (TokenEvent.orNull agg.customerId) ∧ (∀ t ∈ agg.tenantId, NoColon t) ∧
      ((":model:" ++ m).toList <:+ (":model:" ++ TokenEvent.orNull agg.modelId).toList →
        TokenEvent.orNull agg.modelId = m)
  | .event e _ => ∀ t ∈ e.tenantId, NoColon t

instance (m : String) : DecidablePred (SinkStep.Unmixed m)
  | .window _ => inferInstanceAs (Decidable (_ ∧ _ ∧ (_ → _)))
  | .event .. => inferInstanceAs (Decidable (∀ t ∈ _, NoColon t))

def modelWindows (P : Projection) (before : TokenEvent → ℤ) (s : Keyspace) (steps : List SinkStep)
    (scope : Option String) (c m : String) : List UsageAggregate :=
  (appliedWindows (ran P before s steps)).filter fun agg =>
    scopeOf agg.tenantId = scope ∧ TokenEvent.orNull agg.customerId = c ∧
      TokenEvent.orNull agg.modelId = m

/-- The row of a customer with usage of the model. -/
def rowFor (P : Projection) (before : TokenEvent → ℤ) (s : Keyspace) (steps : List SinkStep)
    (m : String) (scope : Option String) (tenantScoped : Bool) (c : String) :
    Option ModelUsageRow :=
  let windows := modelWindows P before s steps scope c m
  if windows = [] then none
  else some
    { customerId := c
      modelKey := familyKey scope c ++ ":model:" ++ m
      customerPrefix := familyKey scope c
      inputTokens := (windows.map UsageAggregate.inputTokens).sum
      outputTokens := (windows.map UsageAggregate.outputTokens).sum
      tenantScoped := tenantScoped }

/-! ### Keys of one window -/

theorem noColon_scopeOf {tenantId : Option String} (h : ∀ t ∈ tenantId, NoColon t) :
    ∀ t ∈ scopeOf tenantId, NoColon t := by
  intro t ht
  exact h t (Option.mem_filter_iff.mp ht).1

theorem inTenant_ne_familyKey {tenantId scope : Option String} (htenant : ∀ t ∈ tenantId, NoColon t)
    (hscope : ∀ t ∈ scope, NoColon t) {rest : String} {letter : Char}
    (hrest : headOf rest = some letter) (hletter : letter ≠ 'c' ∧ letter ≠ 't') (tail x : String) :
    inTenant tenantId rest ++ tail ≠ familyKey scope x := by
  have hplain : headOf (rest ++ tail) = some letter := by
    rw [headOf_append, hrest]
    rfl
  unfold inTenant
  cases tenantId with
  | none => exact bareKey_ne_familyKey hplain hletter x
  | some t =>
    dsimp only
    split_ifs
    · rw [String.append_assoc]
      exact tenantKey_ne_familyKey (htenant t rfl) hscope hplain hletter.1 x
    · exact bareKey_ne_familyKey hplain hletter x

theorem model_split {c x m' m : String} (hc : NoColon c)
    (hend : (":model:" ++ m).toList <:+ (":model:" ++ m').toList → m' = m)
    (h : c ++ ":model:" ++ m' = x ++ ":model:" ++ m) : c = x ∧ m' = m := by
  have hlist : c.toList ++ (":model:" ++ m').toList = x.toList ++ (":model:" ++ m).toList := by
    rw [← String.toList_append, ← String.toList_append, ← String.append_assoc, h,
      String.append_assoc]
  rcases List.append_eq_append_iff.mp hlist with ⟨more, hx, htail⟩ | ⟨more, hmore, htail⟩
  · obtain rfl := hend ⟨more, htail.symm⟩
    refine ⟨?_, rfl⟩
    rw [String.append_assoc, String.append_assoc] at h
    exact (String.append_left_inj _).mp h
  · cases more with
    | nil =>
      rw [List.append_nil] at hmore
      rw [List.nil_append] at htail
      exact ⟨String.ext hmore, ((String.append_right_inj _).mp (String.ext htail)).symm⟩
    | cons letter more =>
      have hcolon : ':' = letter := by
        rw [String.toList_append, List.cons_append] at htail
        exact (List.cons.inj htail).1
      refine absurd ?_ hc
      rw [hmore, ← hcolon]
      simp

section Window
variable {agg : UsageAggregate} {scope : Option String} {m : String}

theorem customerKey_ne (hscope : ∀ t ∈ scope, NoColon t) (hplain : (SinkStep.window agg).Unmixed m)
    {word word' : String} (hword : NoColon word) (hword' : NoColon word') (x : String) :
    (sinkKeys agg).customer ++ (":" ++ word') ≠ modelCounterKey scope x m word := by
  intro h
  have hcustomer : (sinkKeys agg).customer =
      familyKey (scopeOf agg.tenantId) (TokenEvent.orNull agg.customerId) := customerPrefix_eq _ _
  rw [hcustomer, ← String.append_assoc] at h
  obtain ⟨hfamily, -⟩ := last_part hword' hword h
  have hname := (familyKey_inj (noColon_scopeOf hplain.2.1) hscope hfamily).2
  exact noColon_model x m (hname ▸ hplain.1)

theorem modelKey_counter (word : String) : (sinkKeys agg).model ++ (":" ++ word) =
    modelCounterKey (scopeOf agg.tenantId) (TokenEvent.orNull agg.customerId)
      (TokenEvent.orNull agg.modelId) word := by
  have hmodel : (sinkKeys agg).model = familyKey (scopeOf agg.tenantId)
      (TokenEvent.orNull agg.customerId ++ ":model:" ++ TokenEvent.orNull agg.modelId) := by
    rw [String.append_assoc, ← familyKey_append, ← customerPrefix_eq]
    exact String.append_assoc
  rw [hmodel, ← String.append_assoc]
  rfl

theorem modelKey_eq (hscope : ∀ t ∈ scope, NoColon t) (hplain : (SinkStep.window agg).Unmixed m)
    {word word' x : String} (hword : NoColon word) (hword' : NoColon word')
    (h : (sinkKeys agg).model ++ (":" ++ word') = modelCounterKey scope x m word) :
    scopeOf agg.tenantId = scope ∧ TokenEvent.orNull agg.customerId = x ∧
      TokenEvent.orNull agg.modelId = m ∧ word' = word := by
  rw [modelKey_counter] at h
  obtain ⟨hfamily, rfl⟩ := last_part hword' hword h
  obtain ⟨hscopes, hnames⟩ := familyKey_inj (noColon_scopeOf hplain.2.1) hscope hfamily
  obtain ⟨hcustomer, hname⟩ := model_split hplain.1 hplain.2.2 hnames
  exact ⟨hscopes, hcustomer, hname, rfl⟩

theorem globalKey_ne (hscope : ∀ t ∈ scope, NoColon t) (hplain : (SinkStep.window agg).Unmixed m)
    (suffix x word : String) : (sinkKeys agg).global suffix ≠ modelCounterKey scope x m word := by
  intro h
  have hhead : headOf ("global:" ++ suffix) = some 'g' := by
    rw [headOf_append]
    rfl
  have hkey : inTenant agg.tenantId ("global:" ++ suffix) ++ "" =
      familyKey scope (x ++ ":model:" ++ m ++ (":" ++ word)) := by
    rw [String.append_empty, ← familyKey_append, ← String.append_assoc]
    exact h
  exact inTenant_ne_familyKey hplain.2.1 hscope hhead (by decide) _ _ hkey

theorem periodVolume_ne {word : String} (hword : NoColon word) (hvolume : word ≠ "volume_tokens")
    (x : String) : (sinkKeys agg).periodVolume ≠ modelCounterKey scope x m word := by
  intro h
  have hkey : (sinkKeys agg).periodVolume = customerPrefix agg.tenantId
      (TokenEvent.orNull agg.customerId) ++ ":model:" ++ TokenEvent.orNull agg.modelId ++
        ":period:" ++ monthUtc agg.windowEnd ++ ":" ++ "volume_tokens" := by
    have hlast : ":volume_tokens" = ":" ++ "volume_tokens" := rfl
    show periodVolumeKey _ _ _ _ = _
    unfold periodVolumeKey
    rw [hlast, ← String.append_assoc]
  rw [hkey] at h
  exact hvolume (last_part (by decide) hword h).2.symm

/-- The two counters of a model that the rows read. -/
def RowCounter (word : String) (read : UsageAggregate → ℤ) : Prop :=
  word = "input_tokens" ∧ read = UsageAggregate.inputTokens ∨
    word = "output_tokens" ∧ read = UsageAggregate.outputTokens

theorem RowCounter.noColon {word : String} {read : UsageAggregate → ℤ} (h : RowCounter word read) :
    NoColon word ∧ word ≠ "volume_tokens" := by
  rcases h with ⟨rfl, -⟩ | ⟨rfl, -⟩ <;> decide

theorem counter_window {P : Projection} {before : TokenEvent → ℤ} (hscope : ∀ t ∈ scope, NoColon t)
    (hplain : (SinkStep.window agg).Unmixed m) {word : String} {read : UsageAggregate → ℤ}
    (hcounter : RowCounter word read) (c : String) :
    ((SinkStep.window agg).writes P before).filterMap
        (Write.intAt (modelCounterKey scope c m word)) =
      if scopeOf agg.tenantId = scope ∧ TokenEvent.orNull agg.customerId = c ∧
          TokenEvent.orNull agg.modelId = m then [read agg] else [] := by
  obtain ⟨hword, hvolume⟩ := hcounter.noColon
  have hcustomer : ∀ word', NoColon word' →
      (sinkKeys agg).customer ++ (":" ++ word') ≠ modelCounterKey scope c m word :=
    fun word' hword' => customerKey_ne hscope hplain hword hword' c
  have hmodel : ∀ word', NoColon word' →
      ((sinkKeys agg).model ++ (":" ++ word') = modelCounterKey scope c m word ↔
        (scopeOf agg.tenantId = scope ∧ TokenEvent.orNull agg.customerId = c ∧
          TokenEvent.orNull agg.modelId = m) ∧ word' = word) := by
    intro word' hword'
    constructor
    · intro h
      obtain ⟨hscopes, hc, hm, rfl⟩ := modelKey_eq hscope hplain hword hword' h
      exact ⟨⟨hscopes, hc, hm⟩, rfl⟩
    · rintro ⟨⟨rfl, rfl, rfl⟩, rfl⟩
      exact modelKey_counter word'
  have hglobal : ∀ suffix, (sinkKeys agg).global suffix ≠ modelCounterKey scope c m word :=
    fun suffix => globalKey_ne hscope hplain suffix c word
  have hperiod : (sinkKeys agg).periodVolume ≠ modelCounterKey scope c m word :=
    periodVolume_ne hword hvolume c
  have hpositive : ∀ {n : ℤ} {key : String}, key ≠ modelCounterKey scope c m word →
      (Write.positive n (.incrBy key n)).filterMap
        (Write.intAt (modelCounterKey scope c m word)) = [] := by
    intro n key hkey
    unfold Write.positive
    split_ifs
    · rw [List.filterMap_cons_none (by rw [Write.intAt, if_neg hkey])]
      rfl
    · rfl
  have hinput : (sinkKeys agg).customer ++ ":input_tokens" ≠ modelCounterKey scope c m word :=
    hcustomer "input_tokens" (by decide)
  have houtput : (sinkKeys agg).customer ++ ":output_tokens" ≠ modelCounterKey scope c m word :=
    hcustomer "output_tokens" (by decide)
  have htotal : (sinkKeys agg).customer ++ ":total_tokens" ≠ modelCounterKey scope c m word :=
    hcustomer "total_tokens" (by decide)
  have hcount : (sinkKeys agg).customer ++ ":event_count" ≠ modelCounterKey scope c m word :=
    hcustomer "event_count" (by decide)
  have hcache : (sinkKeys agg).customer ++ ":cache_read_tokens" ≠ modelCounterKey scope c m word :=
    hcustomer "cache_read_tokens" (by decide)
  have hreasoning : (sinkKeys agg).customer ++ ":reasoning_tokens" ≠
      modelCounterKey scope c m word := hcustomer "reasoning_tokens" (by decide)
  have hmodelInput : (sinkKeys agg).model ++ ":input_tokens" = modelCounterKey scope c m word ↔ _ :=
    hmodel "input_tokens" (by decide)
  have hmodelOutput : (sinkKeys agg).model ++ ":output_tokens" =
      modelCounterKey scope c m word ↔ _ := hmodel "output_tokens" (by decide)
  have hmodelTotal : (sinkKeys agg).model ++ ":total_tokens" = modelCounterKey scope c m word ↔ _ :=
    hmodel "total_tokens" (by decide)
  have hrollup : ∀ key, (rollupWrites (sinkArgs agg) key).filterMap
      (Write.intAt (modelCounterKey scope c m word)) = [] := by
    intro key
    refine List.filterMap_eq_nil_iff.mpr fun w hw => ?_
    simp only [rollupWrites, List.mem_append, List.mem_cons, Write.mem_positive, List.not_mem_nil,
      or_false] at hw
    casesm* _ ∨ _, _ ∧ _ <;> subst_vars <;> rfl
  simp only [SinkStep.writes, windowWrites, restWrites, List.filterMap_append, List.filterMap_cons,
    List.filterMap_nil, hrollup, hpositive hcache, hpositive hreasoning, Write.intAt,
    if_neg hinput, if_neg houtput, if_neg htotal, if_neg hcount, if_neg (hglobal _), if_neg hperiod,
    hmodelInput, hmodelOutput, hmodelTotal, List.append_nil]
  rcases hcounter with ⟨rfl, rfl⟩ | ⟨rfl, rfl⟩
  · by_cases h : scopeOf agg.tenantId = scope ∧ TokenEvent.orNull agg.customerId = c ∧
        TokenEvent.orNull agg.modelId = m
    · simp [h, sinkArgs]
    · simp [h]
  · by_cases h : scopeOf agg.tenantId = scope ∧ TokenEvent.orNull agg.customerId = c ∧
        TokenEvent.orNull agg.modelId = m
    · simp [h, sinkArgs]
    · simp [h]

end Window

section Run
variable {P : Projection} {before : TokenEvent → ℤ} {s : Keyspace} {steps : List SinkStep}
variable {scope : Option String} {m : String}

theorem event_not_touched (hscope : ∀ t ∈ scope, NoColon t) {e : TokenEvent} {clock : String}
    (hplain : (SinkStep.event e clock).Unmixed m) (x : String) :
    familyKey scope x ∉ (SinkStep.event e clock).touched P before := by
  intro hkey
  rcases List.mem_append.mp hkey with htenant | hshared
  · have hsession : ∀ id : String, headOf ("session" ++ ":" ++ id) = some 's' := by
      intro id
      simp only [headOf_append]
      rfl
    have hpackage : ∀ c : String, headOf ("package:" ++ c ++ ":tokens_remaining") = some 'p' := by
      intro c
      simp only [headOf_append]
      rfl
    have hne : ∀ {rest : String} {letter : Char} (_ : headOf rest = some letter)
        (_ : letter ≠ 'c' ∧ letter ≠ 't') (tail : String),
        inTenant e.tenantId rest ++ tail ≠ familyKey scope x :=
      fun hrest hletter tail => inTenant_ne_familyKey hplain hscope hrest hletter tail x
    simp only [SinkStep.stamped, UsageStep.tenantWrites, projectionTenantWrites, Projection.keys,
      scopePrefix, packageKey, List.mem_append, List.mem_flatMap, List.mem_map, Option.mem_toList,
      Option.map_eq_some_iff, List.mem_cons, List.not_mem_nil, or_false] at htenant
    rcases htenant with (⟨_, ⟨id, -, rfl⟩, suffix, -, h⟩ | h | h) | ⟨_, ⟨id, -, rfl⟩, h⟩
    · exact hne (hsession id) (by decide) suffix h
    · refine hne (hpackage (TokenEvent.orNull e.customerId)) (by decide) "" ?_
      rw [String.append_empty]
      exact h.symm
    · exact hne (hpackage (TokenEvent.orNull e.customerId)) (by decide) ":debt" h.symm
    · exact hne (hsession id) (by decide) ":customer_id" h
  · have hheads := headOf_sharedWrites hshared
    rw [headOf_familyKey] at hheads
    revert hheads
    split_ifs <;> decide

theorem modelCounterKey_eq (scope : Option String) (c m word : String) :
    modelCounterKey scope c m word = familyKey scope (c ++ ":model:" ++ m ++ (":" ++ word)) := by
  rw [← familyKey_append, ← String.append_assoc]
  rfl

/-- A counter of a model after a run holds what the windows of the model wrote. -/
theorem counter_run (hs : Unmetered s) (hplain : ∀ a ∈ steps, a.Unmixed m)
    (hscope : ∀ t ∈ scope, NoColon t) {word : String} {read : UsageAggregate → ℤ}
    (hcounter : RowCounter word read) (c : String) :
    (runSinks P before s steps).usage.ints (modelCounterKey scope c m word) =
      tally none ((modelWindows P before s steps scope c m).map read) := by
  have hempty : s.usage.ints (modelCounterKey scope c m word) = none := by
    refine (hs _ ?_).ints
    rw [modelCounterKey_eq, headOf_familyKey]
    split_ifs <;> simp
  have hran : ∀ a ∈ ran P before s steps, a.Unmixed m :=
    fun a ha => hplain a (ran_subset s steps ha)
  rw [ints_runSinks, hempty]
  · congr 1
    rw [flatMap_appliedWindows (fun agg => if scopeOf agg.tenantId = scope ∧
      TokenEvent.orNull agg.customerId = c ∧ TokenEvent.orNull agg.modelId = m then [read agg]
        else [])]
    · exact flatMap_ite _ _ _
    · exact fun agg hagg => counter_window hscope (hran _ hagg) hcounter c
    · intro e clock he
      refine SinkStep.intAt_untouched fun htouched => ?_
      rw [modelCounterKey_eq] at htouched
      exact event_not_touched hscope (hran _ he) _ htouched
  · intro a ha w hw hover
    cases a with
    | window agg =>
      simp only [SinkStep.writes, windowWrites, restWrites, rollupWrites, List.mem_append,
        List.mem_cons, Write.mem_positive, List.not_mem_nil, or_false] at hw
      casesm* _ ∨ _, _ ∧ _ <;> subst_vars <;> try exact hover.elim
      exact globalKey_ne hscope (hran _ ha) _ _ _ hover
    | event e clock =>
      have hoverwritten := SinkStep.touched_of_overwrites hw hover
      rw [modelCounterKey_eq] at hoverwritten
      exact event_not_touched hscope (hran _ ha) _ hoverwritten

theorem suffix_word (suffix : String)
    (h : suffix ∈ countSuffixes ++ detailSuffixes ++ modelSuffixes) :
    ∃ word, NoColon word ∧ suffix = ":" ++ word := by
  simp only [countSuffixes, detailSuffixes, modelSuffixes, List.mem_append, List.mem_cons,
    List.not_mem_nil, or_false] at h
  rcases h with ((rfl | rfl | rfl | rfl) | rfl | rfl | rfl) | rfl | rfl | rfl | rfl
  · exact ⟨"input_tokens", by decide, rfl⟩
  · exact ⟨"output_tokens", by decide, rfl⟩
  · exact ⟨"total_tokens", by decide, rfl⟩
  · exact ⟨"event_count", by decide, rfl⟩
  · exact ⟨"cost_usd", by decide, rfl⟩
  · exact ⟨"cache_read_tokens", by decide, rfl⟩
  · exact ⟨"reasoning_tokens", by decide, rfl⟩
  · exact ⟨"input_tokens", by decide, rfl⟩
  · exact ⟨"output_tokens", by decide, rfl⟩
  · exact ⟨"total_tokens", by decide, rfl⟩
  · exact ⟨"cost_usd", by decide, rfl⟩

private theorem window_of_touched (hscope : ∀ t ∈ scope, NoColon t) {agg : UsageAggregate}
    (hplain : (SinkStep.window agg).Unmixed m) {word x : String} (hword : NoColon word)
    (hvolume : word ≠ "volume_tokens")
    (hkey : modelCounterKey scope x m word ∈ (SinkStep.window agg).touched P before) :
    scopeOf agg.tenantId = scope ∧ TokenEvent.orNull agg.customerId = x ∧
      TokenEvent.orNull agg.modelId = m := by
  rcases List.mem_append.mp hkey with htenant | hshared
  · simp only [SinkStep.stamped, UsageStep.tenantWrites, windowTenantWrites, List.mem_append,
      List.mem_map, List.mem_singleton] at htenant
    rcases htenant with (((⟨suffix, hsuffix, h⟩ | ⟨suffix, hsuffix, h⟩) | ⟨suffix, hsuffix, h⟩) |
      ⟨suffix, -, h⟩) | h
    · obtain ⟨word', hword', rfl⟩ := suffix_word suffix (by simp [hsuffix])
      exact absurd h (customerKey_ne hscope hplain hword hword' x)
    · obtain ⟨word', hword', rfl⟩ := suffix_word suffix (by simp [hsuffix])
      obtain ⟨hscopes, hc, hm, -⟩ := modelKey_eq hscope hplain hword hword' h
      exact ⟨hscopes, hc, hm⟩
    · obtain ⟨word', hword', rfl⟩ := suffix_word suffix (by simp [hsuffix])
      exact absurd h (customerKey_ne hscope hplain hword hword' x)
    · exact absurd h (globalKey_ne hscope hplain suffix x word)
    · exact absurd h.symm (periodVolume_ne hword hvolume x)
  · exfalso
    have hheads := headOf_sharedWrites hshared
    rw [modelCounterKey_eq, headOf_familyKey] at hheads
    revert hheads
    split_ifs <;> decide

/-- A counter of the model that is there was written by a window of the model. -/
theorem modelWindows_of_has (hs : Unmetered s) (hplain : ∀ a ∈ steps, a.Unmixed m)
    (hscope : ∀ t ∈ scope, NoColon t) {x : String}
    (h : UsageStore.Has (runSinks P before s steps).usage
      (modelCounterKey scope x m "input_tokens")) :
    modelWindows P before s steps scope x m ≠ [] := by
  have hhead : headOf (modelCounterKey scope x m "input_tokens") ∈ [some 't', some 'c'] := by
    rw [modelCounterKey_eq, headOf_familyKey]
    split_ifs <;> simp
  have hbeat : modelCounterKey scope x m "input_tokens" ≠ heartbeatKey := by
    intro heq
    rw [heq] at hhead
    revert hhead
    decide
  rcases has_runSinks hbeat h with hbefore | ⟨a, ha, hkey⟩
  · refine absurd ((has_congr (hs _ hhead)).mp hbefore) ?_
    simp [UsageStore.Has]
  · have hunmixed := hplain a (ran_subset s steps ha)
    cases a with
    | window agg =>
      have hwindow := window_of_touched hscope hunmixed (by decide) (by decide) hkey
      exact List.ne_nil_of_mem
        (List.mem_filter.mpr ⟨mem_appliedWindows.mpr ha, decide_eq_true hwindow⟩)
    | event e clock =>
      rw [modelCounterKey_eq] at hkey
      exact absurd hkey (event_not_touched hscope hunmixed _)

theorem noColon_of_modelWindows (hplain : ∀ a ∈ steps, a.Unmixed m) {c : String}
    (h : modelWindows P before s steps scope c m ≠ []) : NoColon c := by
  obtain ⟨agg, hagg⟩ := List.exists_mem_of_ne_nil _ h
  obtain ⟨hmem, hwindow⟩ := List.mem_filter.mp hagg
  have hunmixed := hplain _ (ran_subset s steps (mem_appliedWindows.mp hmem))
  exact (of_decide_eq_true hwindow).2.1 ▸ hunmixed.1

theorem modelUsageRow_run (hs : Unmetered s) (hplain : ∀ a ∈ steps, a.Unmixed m)
    (hscope : ∀ t ∈ scope, NoColon t) {c : String}
    (hne : modelWindows P before s steps scope c m ≠ []) (tenantScoped : Bool) :
    modelUsageRow (runSinks P before s steps) m tenantScoped
        (modelCounterKey scope c m "input_tokens") =
      (rowFor P before s steps m scope tenantScoped c).map fun row => (c, row) := by
  have hkey : ∀ word, familyKey scope c ++ ":model:" ++ m ++ (":" ++ word) =
      modelCounterKey scope c m word := by
    intro word
    rw [modelCounterKey_eq, familyKey_append, familyKey_append, familyKey_append]
  have hinput : (runSinks P before s steps).usage.ints
      (familyKey scope c ++ ":model:" ++ m ++ ":input_tokens") = _ :=
    (congrArg _ (hkey "input_tokens")).trans
      (counter_run hs hplain hscope (Or.inl ⟨rfl, rfl⟩) c)
  have houtput : (runSinks P before s steps).usage.ints
      (familyKey scope c ++ ":model:" ++ m ++ ":output_tokens") = _ :=
    (congrArg _ (hkey "output_tokens")).trans
      (counter_run hs hplain hscope (Or.inr ⟨rfl, rfl⟩) c)
  unfold modelUsageRow rowFor
  rw [parseModelInputKey_counter hscope (noColon_of_modelWindows hplain hne)]
  dsimp only [Option.map_some]
  rw [if_neg hne, hinput, houtput]
  unfold integer
  rw [getD_tally, getD_tally, Option.getD_none, zero_add, zero_add]
  rfl

theorem rowPattern_iff (hm : Literal m) (hscope : ∀ t ∈ scope, Literal t) (key : String) :
    globMatch (familyKey scope "*" ++ (":model:" ++ m ++ ":input_tokens")) key = true ↔
      ∃ x, key = modelCounterKey scope x m "input_tokens" := by
  have htail : Literal (":model:" ++ m ++ ":input_tokens") :=
    literal_append (literal_append (by decide) hm) (by decide)
  have hkey : ∀ x, modelCounterKey scope x m "input_tokens" =
      familyKey scope "" ++ x ++ (":model:" ++ m ++ ":input_tokens") := by
    intro x
    have hlast : ":input_tokens" = ":" ++ "input_tokens" := rfl
    rw [modelCounterKey_eq, familyKey_append, familyKey_append, hlast]
    simp only [String.empty_append, String.append_assoc]
  have hfront : Literal (familyKey scope "") := by
    cases scope with
    | none => decide
    | some t =>
      have hword : familyKey (some t) "" = "tenant:" ++ t ++ ":customer:" := String.append_empty
      rw [hword]
      exact literal_append (literal_append (by decide) (hscope t rfl)) (by decide)
  have hstar : familyKey scope "*" = familyKey scope "" ++ "*" := by
    rw [familyKey_append, String.empty_append]
  rw [hstar, globMatch_star hfront htail]
  simp only [hkey]

theorem scans_of_windows (hs : Unmetered s) (hplain : ∀ a ∈ steps, a.Unmixed m) (hm : Literal m)
    (hscope : ∀ t ∈ scope, Literal t ∧ NoColon t) {customers keys : List String}
    (hwindows : ∀ agg ∈ appliedWindows steps, scopeOf agg.tenantId = scope →
      TokenEvent.orNull agg.modelId = m → TokenEvent.orNull agg.customerId ∈ customers)
    (hkeys : keys = customers.map fun c => modelCounterKey scope c m "input_tokens")
    (hthere : ∀ key ∈ keys, UsageStore.Has (runSinks P before s steps).usage key) :
    Scans (runSinks P before s steps) (familyKey scope "*" ++ (":model:" ++ m ++ ":input_tokens"))
      keys := by
  have hpattern := rowPattern_iff hm fun t ht => (hscope t ht).1
  intro key
  constructor
  · intro hkey
    refine ⟨hthere key hkey, (hpattern key).mpr ?_⟩
    obtain ⟨c, -, rfl⟩ := List.mem_map.mp (hkeys ▸ hkey)
    exact ⟨c, rfl⟩
  · rintro ⟨hhas, hmatch⟩
    obtain ⟨x, rfl⟩ := (hpattern key).mp hmatch
    obtain ⟨agg, hagg⟩ := List.exists_mem_of_ne_nil _
      (modelWindows_of_has hs hplain (fun t ht => (hscope t ht).2) hhas)
    obtain ⟨hran, hwindow⟩ := List.mem_filter.mp hagg
    obtain ⟨hagree, rfl, hmodel⟩ := of_decide_eq_true hwindow
    rw [hkeys]
    exact List.mem_map_of_mem (hwindows agg
      (mem_appliedWindows.mpr (ran_subset s steps (mem_appliedWindows.mp hran))) hagree hmodel)

theorem rows_of_scan (hs : Unmetered s) (hplain : ∀ a ∈ steps, a.Unmixed m) (hm : Literal m)
    (hscope : ∀ t ∈ scope, Literal t ∧ NoColon t) {keys : List String}
    (hscan : Scans (runSinks P before s steps)
      (familyKey scope "*" ++ (":model:" ++ m ++ ":input_tokens")) keys)
    (tenantScoped : Bool) {key : String} (hkey : key ∈ keys) (c : String) (row : ModelUsageRow) :
    modelUsageRow (runSinks P before s steps) m tenantScoped key = some (c, row) ↔
      key = modelCounterKey scope c m "input_tokens" ∧
        rowFor P before s steps m scope tenantScoped c = some row := by
  have hcolon : ∀ t ∈ scope, NoColon t := fun t ht => (hscope t ht).2
  obtain ⟨hthere, hmatch⟩ := (hscan key).mp hkey
  obtain ⟨x, rfl⟩ := (rowPattern_iff hm (fun t ht => (hscope t ht).1) key).mp hmatch
  have hne := modelWindows_of_has hs hplain hcolon hthere
  rw [modelUsageRow_run hs hplain hcolon hne, Option.map_eq_some_iff]
  constructor
  · rintro ⟨row', hrow, hpair⟩
    obtain ⟨rfl, rfl⟩ := Prod.mk.inj hpair
    exact ⟨rfl, hrow⟩
  · rintro ⟨heq, hrow⟩
    have hc : modelWindows P before s steps scope c m ≠ [] := by
      intro hnone
      unfold rowFor at hrow
      rw [if_pos hnone] at hrow
      cases hrow
    obtain ⟨-, rfl, -⟩ := modelCounterKey_inj hcolon hcolon (noColon_of_modelWindows hplain hne)
      (noColon_of_modelWindows hplain hc) (by decide) (by decide) heq
    exact ⟨row, hrow, rfl⟩

/-- A scan gives the rows of the customers with usage of the model, and each of them one row. -/
theorem exists_row_iff (hs : Unmetered s) (hplain : ∀ a ∈ steps, a.Unmixed m) (hm : Literal m)
    (hscope : ∀ t ∈ scope, Literal t ∧ NoColon t) {keys : List String}
    (hscan : Scans (runSinks P before s steps)
      (familyKey scope "*" ++ (":model:" ++ m ++ ":input_tokens")) keys)
    (tenantScoped : Bool) (c : String) (row : ModelUsageRow) :
    (∃ key ∈ keys, modelUsageRow (runSinks P before s steps) m tenantScoped key = some (c, row)) ↔
      rowFor P before s steps m scope tenantScoped c = some row := by
  constructor
  · rintro ⟨key, hkey, hrow⟩
    exact ((rows_of_scan hs hplain hm hscope hscan tenantScoped hkey c row).mp hrow).2
  · intro hrow
    have hne : modelWindows P before s steps scope c m ≠ [] := by
      intro hnone
      unfold rowFor at hrow
      rw [if_pos hnone] at hrow
      cases hrow
    have hcolon : ∀ t ∈ scope, NoColon t := fun t ht => (hscope t ht).2
    have hkey : modelCounterKey scope c m "input_tokens" ∈ keys := by
      refine (hscan _).mpr
        ⟨Or.inl ?_, (rowPattern_iff hm (fun t ht => (hscope t ht).1) _).mpr ⟨c, rfl⟩⟩
      rw [counter_run hs hplain hcolon (Or.inl ⟨rfl, rfl⟩), Ne, tally_none_eq_none,
        List.map_eq_nil_iff]
      exact hne
    exact ⟨_, hkey,
      (rows_of_scan hs hplain hm hscope hscan tenantScoped hkey c row).mpr ⟨rfl, hrow⟩⟩

theorem rows_consistent (hs : Unmetered s) (hplain : ∀ a ∈ steps, a.Unmixed m) (hm : Literal m)
    (hscope : ∀ t ∈ scope, Literal t ∧ NoColon t) {keys : List String}
    (hscan : Scans (runSinks P before s steps)
      (familyKey scope "*" ++ (":model:" ++ m ++ ":input_tokens")) keys) (tenantScoped : Bool) :
    ∀ a ∈ keys, ∀ b ∈ keys, ∀ c row row',
      modelUsageRow (runSinks P before s steps) m tenantScoped a = some (c, row) →
      modelUsageRow (runSinks P before s steps) m tenantScoped b = some (c, row') → row = row' := by
  intro a ha b hb c row row' hrow hrow'
  have h := ((rows_of_scan hs hplain hm hscope hscan tenantScoped ha c row).mp hrow).2
  have h' := ((rows_of_scan hs hplain hm hscope hscan tenantScoped hb c row').mp hrow').2
  exact Option.some.inj (h.symm.trans h')

theorem get_iterModelUsageRows (hs : Unmetered s) (hplain : ∀ a ∈ steps, a.Unmixed m)
    (hm : Literal m) {tenantId : Option String} (htenant : ∀ t ∈ tenantId, Literal t ∧ NoColon t)
    {tenantKeys legacyKeys : List String}
    (hscan : ∀ t ∈ tenantId, Py.hasTenant (some t) = true →
      Scans (runSinks P before s steps) (tenantModelPattern t m) tenantKeys)
    (hlegacy : Scans (runSinks P before s steps) (legacyModelPattern m) legacyKeys) {c : String}
    {row : ModelUsageRow} :
    (iterModelUsageRows (runSinks P before s steps) tenantId m tenantKeys legacyKeys).get c =
        some row ↔
      (if Py.hasTenant tenantId then rowFor P before s steps m tenantId true c else none) =
          some row ∨
        (if Py.hasTenant tenantId then rowFor P before s steps m tenantId true c else none) = none ∧
          rowFor P before s steps m none false c = some row := by
  have hnone : ∀ t ∈ (none : Option String), Literal t ∧ NoColon t := by simp
  have hbyCid : (if Py.hasTenant tenantId then
      Table.gather (modelUsageRow (runSinks P before s steps) m true) tenantKeys
      else .empty).get c =
      if Py.hasTenant tenantId then rowFor P before s steps m tenantId true c else none := by
    split_ifs with hpy
    · cases tenantId with
      | none => cases hpy
      | some t =>
        have hkeys : Scans (runSinks P before s steps)
            (familyKey (some t) "*" ++ (":model:" ++ m ++ ":input_tokens")) tenantKeys :=
          hscan t rfl hpy
        refine Option.ext fun row => ?_
        rw [Table.get_gather (rows_consistent hs hplain hm htenant hkeys true),
          exists_row_iff hs hplain hm htenant hkeys]
    · rfl
  unfold iterModelUsageRows
  dsimp only
  rw [Table.get_complete
      (@rows_consistent P before s steps none m hs hplain hm hnone _ hlegacy false), hbyCid,
    @exists_row_iff P before s steps none m hs hplain hm hnone _ hlegacy]

end Run

/-- The rows of a tenant and a model after a run of the sinks: one row for each customer with usage
of the model under the tenant, with what its windows wrote; and one legacy row for each customer
with usage of the model under no tenant that has no row yet. -/
theorem modelRows_attributed (P : Projection) (before : TokenEvent → ℤ) {s : Keyspace}
    {steps : List SinkStep} (hs : Unmetered s) {tenantId : Option String} {m : String}
    (hplain : ∀ a ∈ steps, a.Unmixed m) (hm : Literal m)
    (htenant : ∀ t ∈ tenantId, Literal t ∧ NoColon t) {tenantKeys legacyKeys : List String}
    (hscan : ∀ t ∈ tenantId, Py.hasTenant (some t) = true →
      Scans (runSinks P before s steps) (tenantModelPattern t m) tenantKeys)
    (hlegacy : Scans (runSinks P before s steps) (legacyModelPattern m) legacyKeys) (c : String) :
    (iterModelUsageRows (runSinks P before s steps) tenantId m tenantKeys legacyKeys).get c =
      (if Py.hasTenant tenantId then rowFor P before s steps m tenantId true c else none).or
        (rowFor P before s steps m none false c) := by
  refine Option.ext fun row => ?_
  rw [get_iterModelUsageRows hs hplain hm htenant hscan hlegacy, Option.or_eq_some_iff]

/-- A window of the customer `c2` under no tenant. -/
def legacyWindow : UsageAggregate :=
  { windowOfC1 "acme" with tenantId := none, customerId := some "c2" }

theorem modelRows_attributed_acme :
    (iterModelUsageRows (runSinks sampleProjection (fun _ => 0) {}
        [.window (windowOfC1 "acme"), .window (windowOfC1 "globex"), .window legacyWindow])
      (some "acme") "gpt-4o" ["tenant:acme:customer:c1:model:gpt-4o:input_tokens"]
      ["customer:c2:model:gpt-4o:input_tokens"]).get "c1" =
      some
        { customerId := "c1"
          modelKey := "tenant:acme:customer:c1:model:gpt-4o"
          customerPrefix := "tenant:acme:customer:c1"
          inputTokens := 7
          outputTokens := 0
          tenantScoped := true } := by
  have hempty : Unmetered ({} : Keyspace) := fun _ _ => ⟨rfl, rfl, rfl, rfl, rfl⟩
  have hplain : ∀ a ∈ [SinkStep.window (windowOfC1 "acme"), .window (windowOfC1 "globex"),
      .window legacyWindow], a.Unmixed "gpt-4o" := by decide +kernel
  have htenant : Scans (runSinks sampleProjection (fun _ => 0) {}
      [.window (windowOfC1 "acme"), .window (windowOfC1 "globex"), .window legacyWindow])
      (tenantModelPattern "acme" "gpt-4o")
      ["tenant:acme:customer:c1:model:gpt-4o:input_tokens"] := by
    refine @scans_of_windows _ _ _ _ (some "acme") "gpt-4o" hempty hplain (by decide) (by decide)
      ["c1"] _ (by decide) (by decide +kernel) fun key hkey => Or.inl ?_
    rw [List.mem_singleton.mp hkey]
    decide +kernel
  have hlegacy : Scans (runSinks sampleProjection (fun _ => 0) {}
      [.window (windowOfC1 "acme"), .window (windowOfC1 "globex"), .window legacyWindow])
      (legacyModelPattern "gpt-4o") ["customer:c2:model:gpt-4o:input_tokens"] := by
    refine @scans_of_windows _ _ _ _ none "gpt-4o" hempty hplain (by decide) (by decide)
      ["c2"] _ (by decide) (by decide +kernel) fun key hkey => Or.inl ?_
    rw [List.mem_singleton.mp hkey]
    decide +kernel
  rw [modelRows_attributed sampleProjection (fun _ => 0) hempty hplain (by decide) (by decide)
    (by rintro t ⟨⟩ -; exact htenant) hlegacy]
  decide +kernel

/-- A customer under no tenant has a row of the tenant `acme`, of whose windows none is its own; and
a customer with a colon in its name has its row under the name before the colon, with no tokens. -/
theorem not_modelRows_attributed :
    (∃ tenantKeys legacyKeys,
      Scans (runSinks sampleProjection (fun _ => 0) {}
        [.window (windowOfC1 "acme"), .window legacyWindow])
        (tenantModelPattern "acme" "gpt-4o") tenantKeys ∧
      Scans (runSinks sampleProjection (fun _ => 0) {}
        [.window (windowOfC1 "acme"), .window legacyWindow])
        (legacyModelPattern "gpt-4o") legacyKeys ∧
      (iterModelUsageRows (runSinks sampleProjection (fun _ => 0) {}
        [.window (windowOfC1 "acme"), .window legacyWindow])
        (some "acme") "gpt-4o" tenantKeys legacyKeys).get "c2" ≠
      rowFor sampleProjection (fun _ => 0) {} [.window (windowOfC1 "acme"), .window legacyWindow]
        "gpt-4o" (some "acme") true "c2") ∧
    ∃ tenantKeys,
      Scans (runSinks sampleProjection (fun _ => 0) {}
        [.window { windowOfC1 "acme" with customerId := some "a:b" }])
        (tenantModelPattern "acme" "gpt-4o") tenantKeys ∧
      Scans (runSinks sampleProjection (fun _ => 0) {}
        [.window { windowOfC1 "acme" with customerId := some "a:b" }])
        (legacyModelPattern "gpt-4o") [] ∧
      (iterModelUsageRows (runSinks sampleProjection (fun _ => 0) {}
        [.window { windowOfC1 "acme" with customerId := some "a:b" }])
        (some "acme") "gpt-4o" tenantKeys []).get "a:b" = none ∧
      ((iterModelUsageRows (runSinks sampleProjection (fun _ => 0) {}
        [.window { windowOfC1 "acme" with customerId := some "a:b" }])
        (some "acme") "gpt-4o" tenantKeys []).get "a").map ModelUsageRow.inputTokens = some 0 := by
  constructor
  · refine ⟨["tenant:acme:customer:c1:model:gpt-4o:input_tokens"],
      ["customer:c2:model:gpt-4o:input_tokens"], ?_, ?_, by decide +kernel⟩
    · refine @scans_of_windows _ _ _ _ (some "acme") "gpt-4o" (fun _ _ => ⟨rfl, rfl, rfl, rfl, rfl⟩)
        (by decide +kernel) (by decide) (by decide) ["c1"] _ (by decide) (by decide +kernel)
        fun key hkey => Or.inl ?_
      rw [List.mem_singleton.mp hkey]
      decide +kernel
    · refine @scans_of_windows _ _ _ _ none "gpt-4o" (fun _ _ => ⟨rfl, rfl, rfl, rfl, rfl⟩)
        (by decide +kernel) (by decide) (by decide) ["c2"] _ (by decide) (by decide +kernel)
        fun key hkey => Or.inl ?_
      rw [List.mem_singleton.mp hkey]
      decide +kernel
  · refine ⟨["tenant:acme:customer:a:b:model:gpt-4o:input_tokens"], ?_, ?_, by decide +kernel,
      by decide +kernel⟩
    · apply scans_of_touched
      · decide +kernel
      · decide +kernel
      · intro key hkey
        rw [List.mem_singleton.mp hkey]
        exact ⟨Or.inl (by decide +kernel), by decide +kernel⟩
    · apply scans_of_touched
      · decide +kernel
      · decide +kernel
      · exact fun _ hkey => absurd hkey List.not_mem_nil

end FluxMeter.Usage
