import Mathlib.Data.List.Basic

/-! `validate_metadata` of `billing_dims.py`: the metadata of an event may have the whitelisted
dimensions only. -/
namespace FluxMeter.Api

abbrev Metadata := List (String × String)

/-- `sorted(ALLOWED_DIMS)` where `FLUXMETER_USAGE_DIMS` is not set. -/
def defaultDims : List String := ["feature", "room_id"]

/-- `MAX_METADATA_KEYS`. -/
def maxMetadataKeys : ℕ := 8

/-- A list of names as Python writes it, for names without quotes and backslashes. -/
def namesText (names : List String) : String :=
  "[" ++ ", ".intercalate (names.map fun name => "'" ++ name ++ "'") ++ "]"

/-- What is wrong with one entry. -/
def entryError (allowedDims : List String) (entry : String × String) : Option String :=
  if entry.1 ∉ allowedDims then
    some ("metadata key '" ++ entry.1 ++ "' not in whitelist " ++ namesText allowedDims)
  else if entry.2 = "" then some "metadata values must be non-empty strings"
  else none

/-- `validate_metadata`, with the text of the `ValueError` where it raises. -/
def validateMetadata (allowedDims : List String) (metadata : Option Metadata) :
    Except String (Option Metadata) :=
  match metadata with
  | none => .ok none
  | some [] => .ok none
  | some entries =>
    if maxMetadataKeys < entries.length then
      .error ("metadata exceeds " ++ toString maxMetadataKeys ++ " keys")
    else
      match entries.findSome? (entryError allowedDims) with
      | some message => .error message
      | none => .ok (some entries)

variable {allowedDims : List String} {metadata : Option Metadata} {m : Metadata}

private theorem entryError_eq_none {entry : String × String} :
    entryError allowedDims entry = none ↔ entry.1 ∈ allowedDims ∧ entry.2 ≠ "" := by
  unfold entryError
  by_cases hkey : entry.1 ∈ allowedDims
  · rw [if_neg (not_not.mpr hkey)]
    by_cases hvalue : entry.2 = ""
    · simp [hvalue]
    · simp [hkey, hvalue]
  · simp [hkey]

/-- What is accepted has few entries, all of them whitelisted. -/
theorem validateMetadata_ok_iff : (∃ out, validateMetadata allowedDims (some m) = .ok out) ↔
    m.length ≤ maxMetadataKeys ∧ ∀ entry ∈ m, entry.1 ∈ allowedDims ∧ entry.2 ≠ "" := by
  cases m with
  | nil => simp [validateMetadata]
  | cons e m =>
    have hentries : (e :: m).findSome? (entryError allowedDims) = none ↔
        ∀ entry ∈ e :: m, entry.1 ∈ allowedDims ∧ entry.2 ≠ "" := by
      rw [List.findSome?_eq_none_iff]
      exact forall₂_congr fun _ _ => entryError_eq_none
    rw [← hentries]
    unfold validateMetadata
    dsimp only
    split_ifs with hlong
    · exact iff_of_false (fun ⟨_, h⟩ => by cases h) fun h => absurd hlong (Nat.not_lt.mpr h.1)
    · cases (e :: m).findSome? (entryError allowedDims) with
      | some message => simp
      | none => exact iff_of_true ⟨_, rfl⟩ ⟨Nat.not_lt.mp hlong, rfl⟩

/-- What the function returns has the entries that it was given. -/
theorem validateMetadata_entries {out : Metadata}
    (h : validateMetadata allowedDims metadata = .ok (some out)) : metadata = some out := by
  unfold validateMetadata at h
  split at h
  · cases h
  · cases h
  · split_ifs at h
    split at h
    · cases h
    · rw [Option.some.inj (Except.ok.inj h)]

end FluxMeter.Api
