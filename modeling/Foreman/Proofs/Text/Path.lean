import Foreman.Text.Path

namespace Foreman.Text

variable {path : Text}

theorem withSlash_empty : withSlash [] = "/" := rfl

theorem withSlash_point : withSlash "." = [] := rfl

theorem withSlash_of_named (hempty : path ≠ []) (hpoint : path ≠ ".") :
    path.withSlash = if path.getLast? = some ('/' : UInt8) then path else path ++ "/" := by
  unfold withSlash
  rw [if_neg (mt List.isEmpty_iff.mp hempty), if_neg hpoint]
  rfl

-- A named path keeps its first byte.
theorem head?_withSlash (hempty : path ≠ []) (hpoint : path ≠ ".") :
    path.withSlash.head? = path.head? := by
  rw [withSlash_of_named hempty hpoint]
  split
  · rfl
  · cases path with
    | nil => exact absurd rfl hempty
    | cons c rest => rfl

theorem isAbsolute_append (hempty : path ≠ []) (rest : Text) :
    (path ++ rest).isAbsolute = path.isAbsolute := by
  cases path with
  | nil => exact absurd rfl hempty
  | cons c path => rfl

theorem isAbsolute_withSlash (hempty : path ≠ []) (hpoint : path ≠ ".") :
    path.withSlash.isAbsolute = path.isAbsolute := by
  rw [isAbsolute, isAbsolute, head?_withSlash hempty hpoint]

theorem withSlash_ne_nil (hempty : path ≠ []) (hpoint : path ≠ ".") : path.withSlash ≠ [] := by
  intro h
  have hhead := head?_withSlash hempty hpoint
  rw [h, List.head?_nil] at hhead
  exact hempty (List.head?_eq_none_iff.mp hhead.symm)

end Foreman.Text
