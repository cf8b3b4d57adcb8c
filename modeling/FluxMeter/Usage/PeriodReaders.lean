import FluxMeter.Usage.SinkRuns

/-! The readers of monthly costs: `rollup_store.py` and `intelligence/native_reader.py`. They find
keys by index or by scan and split them at the colons. -/
namespace FluxMeter.Usage
open FluxMeter.Budget FluxMeter.Keys FluxMeter.Model Collections Collections.Glob

namespace PeriodReader

/-- The loop of `list_customer_period_costs` over the members of the index. -/
def customerCostsByIndex (s : Keyspace) (period : String) : Table String ℚ :=
  .gather (fun cid => (readUsageBucket s (rollupMonthKey cid period)).map fun data =>
    (cid, data.costUsd)) (s.usage.sets (periodCustomersIndex period))

def customerPattern (period : String) : String := "rollup:" ++ "*" ++ (":period:" ++ period)

def customerOfKey (key : String) : Option String :=
  match colonParts key with
  | ["rollup", cid, "period", _] => some cid
  | _ => none

/-- Its loop over the keys of a scan, where there is no index. -/
def customerCostsByScan (s : Keyspace) (keys : List String) : Table String ℚ :=
  .gather (fun key => (customerOfKey key).bind fun cid =>
    (readUsageBucket s key).map fun data => (cid, data.costUsd)) keys

/-- `list_customer_period_costs`; `keys` is what the scan returns. -/
def listCustomerPeriodCosts (s : Keyspace) (period : String) (keys : List String) : Table String ℚ :=
  if s.usage.sets (periodCustomersIndex period) ≠ [] then customerCostsByIndex s period
  else customerCostsByScan s keys

/-- The customer that `list_model_period_costs` is restricted to; an empty id restricts nothing. -/
def restriction (customerId : Option String) : Option String := customerId.filter fun c => c ≠ ""

def modelPattern (customerId : Option String) (period : String) : String :=
  match restriction customerId with
  | some c => ("rollup:" ++ c ++ ":model:") ++ "*" ++ (":period:" ++ period)
  | none => "rollup:" ++ "*" ++ ":model:" ++ "*" ++ (":period:" ++ period)

def modelOfKey (key : String) : Option String :=
  match colonParts key with
  | [_, _, "model", modelId, "period", _] => some modelId
  | _ => none

/-- `list_model_period_costs`, which adds up over the keys of the scan. -/
def listModelPeriodCosts (s : Keyspace) (keys : List String) : Table String ℚ :=
  .accumulate (fun key => (modelOfKey key).bind fun modelId =>
    (readUsageBucket s key).map fun data => (modelId, data.costUsd)) keys

def dimPattern (dimKey period : String) : String :=
  ("dim:" ++ dimKey ++ ":") ++ "*" ++ (":period:" ++ period ++ ":cost_usd")

/-- `list_dim_period_costs` for one of the allowed dimensions. -/
def listDimPeriodCosts (s : Keyspace) (keys : List String) : Table String ℚ :=
  .gather (fun key =>
    let cost := number (s.usage.floats key)
    if 0 < cost then some ((colonParts key).getD 2 "", cost) else none) keys

end PeriodReader

open PeriodReader

/-! ### Keys of four and of six parts -/

theorem toList_colonParts (key : String) :
    key.toList = [':'].intercalate ((colonParts key).map String.toList) := by
  unfold colonParts
  rw [List.map_map]
  have hid : String.toList ∘ String.ofList = id := funext fun l => String.toList_ofList
  rw [hid, List.map_id, List.intercalate_splitOn]

theorem noColon_model (c m : String) : ¬ NoColon (c ++ ":model:" ++ m) := by
  intro h
  apply h
  simp [String.toList_append]

theorem customerOfKey_eq_some {key c : String} (h : customerOfKey key = some c) :
    NoColon c ∧ ∃ p, NoColon p ∧ key = rollupMonthKey c p := by
  unfold customerOfKey at h
  split at h
  · rename_i cid period hparts
    obtain rfl := Option.some.inj h
    have hmem : ∀ part ∈ [cid, period], NoColon part := by
      intro part hpart
      apply @noColon_of_mem_colonParts key
      rw [hparts]
      simp only [List.mem_cons, List.not_mem_nil, or_false] at hpart ⊢
      tauto
    refine ⟨hmem _ (by simp), period, hmem period (by simp), String.ext ?_⟩
    rw [toList_colonParts, hparts]
    simp [rollupMonthKey, String.toList_append, List.intercalate]
  · cases h

theorem colonParts_rollupMonthKey {c p : String} (hc : NoColon c) (hp : NoColon p) :
    colonParts (rollupMonthKey c p) = ["rollup", c, "period", p] := by
  have hkey : rollupMonthKey c p = "rollup" ++ ":" ++ (c ++ ":" ++ ("period" ++ ":" ++ p)) := by
    unfold rollupMonthKey
    apply String.ext
    simp [String.toList_append]
  rw [hkey, colonParts_append (by decide), colonParts_append hc, colonParts_append (by decide),
    colonParts_last hp]

theorem colonParts_rollupDayKey {c d : String} (hc : NoColon c) (hd : NoColon d) :
    colonParts (rollupDayKey c d) = ["rollup", c, "d", d] := by
  have hkey : rollupDayKey c d = "rollup" ++ ":" ++ (c ++ ":" ++ ("d" ++ ":" ++ d)) := by
    unfold rollupDayKey
    apply String.ext
    simp [String.toList_append]
  rw [hkey, colonParts_append (by decide), colonParts_append hc, colonParts_append (by decide),
    colonParts_last hd]

theorem customerOfKey_rollup {c p : String} (hc : NoColon c) (hp : NoColon p) :
    customerOfKey (rollupMonthKey c p) = some c := by
  unfold customerOfKey
  rw [colonParts_rollupMonthKey hc hp]
  rfl

/-- The rollups of customers have four parts. -/
theorem modelOfKey_rollupMonthKey {c p : String} (hc : NoColon c) (hp : NoColon p) :
    modelOfKey (rollupMonthKey c p) = none := by
  unfold modelOfKey
  rw [colonParts_rollupMonthKey hc hp]
  rfl

theorem modelOfKey_rollupDayKey {c d : String} (hc : NoColon c) (hd : NoColon d) :
    modelOfKey (rollupDayKey c d) = none := by
  unfold modelOfKey
  rw [colonParts_rollupDayKey hc hd]
  rfl

theorem modelOfKey_rollup {c m p : String} (hc : NoColon c) (hm : NoColon m) (hp : NoColon p) :
    modelOfKey (modelPeriodKey c m p) = some m := by
  have hkey : modelPeriodKey c m p =
      "rollup" ++ ":" ++ (c ++ ":" ++ ("model" ++ ":" ++ (m ++ ":" ++ ("period" ++ ":" ++ p)))) := by
    unfold modelPeriodKey
    apply String.ext
    simp [String.toList_append]
  unfold modelOfKey
  rw [hkey, colonParts_append (by decide), colonParts_append hc, colonParts_append (by decide),
    colonParts_append hm, colonParts_append (by decide), colonParts_last hp]
  rfl

end FluxMeter.Usage
