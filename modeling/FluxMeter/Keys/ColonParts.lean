import FluxMeter.Keys.Separator

/-! Keys split at the colons, as the readers of the API do. -/
namespace FluxMeter.Keys
open Collections

def NoColon (s : String) : Prop := ':' ∉ s.toList

instance (s : String) : Decidable (NoColon s) := inferInstanceAs (Decidable (':' ∉ s.toList))

/-- `key.split(":")`. -/
def colonParts (key : String) : List String := (key.toList.splitOn ':').map String.ofList

theorem colonParts_last {s : String} (h : NoColon s) : colonParts s = [s] := by
  unfold colonParts
  rw [List.splitOn_eq_singleton h, List.map_singleton, String.ofList_toList]

theorem colonParts_append {s : String} (h : NoColon s) (rest : String) :
    colonParts (s ++ ":" ++ rest) = s :: colonParts rest := by
  unfold colonParts
  have hlist : (s ++ ":" ++ rest).toList = s.toList ++ ':' :: rest.toList := by
    simp [String.toList_append]
  rw [hlist, List.splitOn_append_cons_self_of_not_mem h, List.map_cons, String.ofList_toList]

theorem noColon_of_mem_colonParts {key part : String} (h : part ∈ colonParts key) :
    NoColon part := by
  obtain ⟨chars, hmem, rfl⟩ := List.mem_map.mp h
  unfold NoColon
  rw [String.toList_ofList]
  exact (part_of_splitOn hmem).1

theorem first_part {a a' rest rest' : String} (ha : NoColon a) (ha' : NoColon a')
    (h : a ++ ":" ++ rest = a' ++ ":" ++ rest') : a = a' ∧ rest = rest' := by
  have hlist : a.toList ++ ':' :: rest.toList = a'.toList ++ ':' :: rest'.toList := by
    have hchars := congrArg String.toList h
    simpa [String.toList_append] using hchars
  rcases List.append_eq_append_iff.mp hlist with ⟨more, hmore, hrest⟩ | ⟨more, hmore, hrest⟩
  · cases more with
    | nil =>
      rw [List.append_nil] at hmore
      rw [List.nil_append, List.cons.injEq] at hrest
      exact ⟨String.ext hmore.symm, String.ext hrest.2⟩
    | cons c more =>
      rw [List.cons_append, List.cons.injEq] at hrest
      refine absurd ?_ ha'
      rw [hmore, ← hrest.1]
      simp
  · cases more with
    | nil =>
      rw [List.append_nil] at hmore
      rw [List.nil_append, List.cons.injEq] at hrest
      exact ⟨String.ext hmore, String.ext hrest.2.symm⟩
    | cons c more =>
      rw [List.cons_append, List.cons.injEq] at hrest
      refine absurd ?_ ha
      rw [hmore, ← hrest.1]
      simp

end FluxMeter.Keys
