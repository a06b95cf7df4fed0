import SshKeySync.Std.Text

/-! Rust's `Path` on Unix: `join`, and the components by which paths are compared. -/
namespace RustStd

inductive Component where
  | rootDir
  | curDir
  | parentDir
  | normal (name : Str)
  deriving DecidableEq

/-- What stands between two separators. Nothing and a single dot are no component. -/
def Component.ofPiece (piece : Str) : Option Component :=
  if piece = [] ∨ piece = ['.'] then none
  else if piece = ['.', '.'] then some .parentDir
  else some (.normal piece)

/-- The start of an absolute path, or a dot that a relative path begins with. -/
def Component.leading (path : Str) : List Component :=
  if path.head? = some '/' then [.rootDir]
  else if (path.splitOn '/').head? = some ['.'] then [.curDir]
  else []

/-- `Path::components`. -/
def components (path : Str) : List Component :=
  Component.leading path ++ (path.splitOn '/').filterMap Component.ofPiece

/-- `Path::join`. An absolute second part replaces the first. -/
def joinPath (base name : Str) : Str :=
  if name.head? = some '/' ∨ base = [] then name
  else if base.getLast? = some '/' then base ++ name
  else base ++ '/' :: name

private theorem leading_append_separator {base : Str} (hbase : base ≠ []) (rest : Str) :
    Component.leading (base ++ '/' :: rest) = Component.leading base := by
  obtain ⟨first, pieces, hpieces⟩ := List.exists_cons_of_ne_nil (List.splitOn_ne_nil '/' base)
  rw [Component.leading, Component.leading, List.head?_append_of_ne_nil _ hbase,
    List.splitOn_append_cons_self, hpieces]
  rfl

/-- Joining a name without separator adds its component, if it has one. -/
theorem components_joinPath {base name : Str} (hbase : base ≠ []) (hname : '/' ∉ name) :
    components (joinPath base name) = components base ++ (Component.ofPiece name).toList := by
  have hhead : name.head? ≠ some '/' := fun h => hname (List.mem_of_head? h)
  have hsplit : name.splitOn '/' = [name] := List.splitOn_eq_singleton hname
  have hlast : [name].filterMap Component.ofPiece = (Component.ofPiece name).toList := by
    rw [List.filterMap_cons]
    cases Component.ofPiece name <;> rfl
  rw [joinPath, if_neg (not_or.mpr ⟨hhead, hbase⟩)]
  split
  · rename_i hslash
    obtain ⟨start, rfl⟩ := List.getLast?_eq_some_iff.mp hslash
    rw [List.append_assoc, List.singleton_append, components, components, List.splitOn_append_cons_self,
      List.splitOn_append_cons_self, List.filterMap_append, List.filterMap_append, hsplit, hlast]
    have hleading : Component.leading (start ++ '/' :: name) = Component.leading (start ++ ['/']) := by
      cases start with
      | nil => rfl
      | cons c start =>
        rw [leading_append_separator (List.cons_ne_nil c start),
          leading_append_separator (List.cons_ne_nil c start)]
    rw [hleading]
    simp [Component.ofPiece]
  · rw [components, components, List.splitOn_append_cons_self, List.filterMap_append, hsplit, hlast,
      leading_append_separator hbase, List.append_assoc]

/-- A path with a name is not empty. -/
theorem joinPath_ne_nil (base : Str) {name : Str} (hname : name ≠ []) : joinPath base name ≠ [] := by
  rw [joinPath]
  split
  · exact hname
  · split
    · exact List.append_ne_nil_of_right_ne_nil _ hname
    · exact List.append_ne_nil_of_right_ne_nil _ (List.cons_ne_nil _ _)

/-- Different non-empty names are different components, or different absences of one. -/
theorem ofPiece_injective {name name' : Str} (hne : name ≠ []) (hne' : name' ≠ []) :
    Component.ofPiece name = Component.ofPiece name' ↔ name = name' := by
  refine ⟨fun h => ?_, congrArg _⟩
  rw [Component.ofPiece, Component.ofPiece] at h
  split at h
  · rename_i hdot
    split at h
    · rename_i hdot'
      rw [hdot.resolve_left hne, hdot'.resolve_left hne']
    · split at h <;> cases h
  · split at h
    · rename_i hdots
      split at h
      · cases h
      · split at h
        · rename_i hdots'
          rw [hdots, hdots']
        · cases h
    · split at h
      · cases h
      · split at h <;> cases h
        rfl

end RustStd
