import Mathlib.Algebra.Field.Rat

/-! JSON trees as the services exchange them, and Python dicts with string keys. -/
namespace FluxMeter.Wire

inductive Json
  | null
  | bool (b : Bool)
  | num (n : ℤ)
  | float (q : ℚ)
  | str (s : String)
  | arr (items : List Json)
  | obj (fields : List (String × Json))
  deriving Repr

/-- A dict in insertion order. -/
abbrev Dict := List (String × Json)

namespace Dict

/-- `d.get(key)`; `none` when the key is absent. -/
def get (d : Dict) (key : String) : Option Json := d.lookup key

/-- `d[key] = value`: an existing key keeps its place. -/
def set : Dict → String → Json → Dict
  | [], key, value => [(key, value)]
  | (k, v) :: d, key, value => if k = key then (k, value) :: d else (k, v) :: set d key value

theorem get_nil (key : String) : get [] key = none := rfl

theorem get_cons (k : String) (v : Json) (d : Dict) (key : String) :
    get ((k, v) :: d) key = if key = k then some v else get d key := by
  unfold get
  rw [List.lookup_cons]
  by_cases h : key = k
  · subst h; simp
  · have hb : (key == k) = false := by simpa using h
    simp [hb, h]

theorem get_append (d d' : Dict) (key : String) : get (d ++ d') key = (get d key).or (get d' key) := by
  induction d with
  | nil => rfl
  | cons p d ih =>
    obtain ⟨k, v⟩ := p
    rw [List.cons_append, get_cons, get_cons, ih]
    split_ifs <;> rfl

theorem get_set (d : Dict) (key : String) (value : Json) (j : String) :
    get (set d key value) j = if j = key then some value else get d j := by
  induction d with
  | nil => rw [set, get_cons, get_nil]
  | cons p d ih =>
    obtain ⟨k, v⟩ := p
    rw [set]
    by_cases hk : k = key
    · rw [if_pos hk, get_cons, get_cons, hk]
      split_ifs <;> rfl
    · rw [if_neg hk, get_cons, get_cons, ih]
      by_cases hj : j = k
      · subst hj; simp [hk]
      · simp [hj]

theorem set_of_get {d : Dict} {key : String} {value : Json} (h : d.get key = some value) :
    d.set key value = d := by
  induction d with
  | nil => simp [get_nil] at h
  | cons p d ih =>
    obtain ⟨k, v⟩ := p
    rw [get_cons] at h
    rw [set]
    split_ifs at h ⊢ with hkey hk
    · rw [Option.some.inj h]
    · exact absurd hkey.symm hk
    · rename_i hk
      exact absurd hk.symm hkey
    · rw [ih h]

/-- An optional field of a dumped model; `none` is left out. -/
def opt (key : String) (value : Option Json) : Dict :=
  match value with
  | some v => [(key, v)]
  | none => []

theorem get_opt (key : String) (value : Option Json) (j : String) :
    get (opt key value) j = if j = key then value else none := by
  cases value with
  | none => simp [opt, get_nil]
  | some v => rw [opt, get_cons, get_nil]

theorem mem_opt {key k : String} {value : Option Json} {v : Json} :
    (k, v) ∈ opt key value ↔ k = key ∧ value = some v := by
  cases value with
  | none => simp [opt]
  | some w => simp [opt, eq_comm]

theorem mem_of_get {d : Dict} {k : String} {v : Json} (h : d.get k = some v) : (k, v) ∈ d := by
  induction d with
  | nil => simp [get_nil] at h
  | cons p d ih =>
    obtain ⟨j, w⟩ := p
    rw [get_cons] at h
    split_ifs at h with hk
    · rw [hk, ← Option.some.inj h]
      exact List.mem_cons_self
    · exact List.mem_cons_of_mem _ (ih h)

end Dict

namespace Json

/-- A text or `None`. -/
def ofOption (s : Option String) : Json := (s.map Json.str).getD .null

/-- `JsonNode.path(field)`; `none` is the missing node. -/
def path (node : Option Json) (field : String) : Option Json :=
  match node with
  | some (.obj fields) => Dict.get fields field
  | _ => none

def isObject : Option Json → Bool
  | some (.obj _) => true
  | _ => false

end Json

end FluxMeter.Wire
