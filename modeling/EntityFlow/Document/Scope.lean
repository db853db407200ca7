/-!
# Scopes

The frames of the declarations that are open, the innermost on top. A part of a declaration finds
its owner on top or, where the frames between do not own parts of its sort, at the nearest frame
that does.
-/

namespace EntityFlow

/-- The open frames, the innermost first. -/
structure Scope (F : Type) where
  frames : List F
deriving Repr, DecidableEq

namespace Scope

variable {F : Type}

/-- The scope without frames. -/
def empty : Scope F := ⟨[]⟩

/-- Opens a frame. -/
def enter (s : Scope F) (frame : F) : Scope F := ⟨frame :: s.frames⟩

/-- Closes the innermost frame, if there is one. -/
def exit (s : Scope F) : Option F × Scope F := (s.frames.head?, ⟨s.frames.tail⟩)

/-- The innermost frame. -/
def top? (s : Scope F) : Option F := s.frames.head?

/-- The frame so many levels below the top. -/
def peek? (s : Scope F) (depth : Nat) : Option F := s.frames[depth]?

/-- The number of open frames. -/
def depth (s : Scope F) : Nat := s.frames.length

/-- Whether no frame is open. -/
def isEmpty (s : Scope F) : Bool := s.frames.isEmpty

/-- The first value that a frame gives, from the top down. -/
def nearest? {α : Type} (s : Scope F) (select : F → Option α) : Option α :=
  s.frames.findSome? select

/-- The frames with the first one changed for which there is a change. -/
def changeFirst? (change : F → Option F) : List F → Option (List F)
  | [] => none
  | frame :: rest =>
      match change frame with
      | some changed => some (changed :: rest)
      | none => (changeFirst? change rest).map (frame :: ·)

/-- Changes the nearest frame for which there is a change, from the top down. -/
def changeNearest? (s : Scope F) (change : F → Option F) : Option (Scope F) :=
  (changeFirst? change s.frames).map fun frames => ⟨frames⟩

/-- Changes the nearest frame for which there is a change, if there is one. -/
def changeNearest (s : Scope F) (change : F → Option F) : Scope F := (s.changeNearest? change).getD s

/-- Changes the innermost frame, if there is one. -/
def changeTop (s : Scope F) (change : F → F) : Scope F := ⟨s.frames.modifyHead change⟩

/-- What a change of a frame leaves alone, a change of the nearest frame leaves alone in all. -/
theorem map_changeFirst? {α : Type} {view : F → α} {change : F → Option F}
    (same : ∀ frame changed, change frame = some changed → view changed = view frame)
    {frames changed : List F} (found : changeFirst? change frames = some changed) :
    changed.map view = frames.map view := by
  fun_induction changeFirst? change frames generalizing changed with
  | case1 => cases found
  | case2 frame rest next known =>
      cases found
      rw [List.map_cons, List.map_cons, same frame next known]
  | case3 frame rest unknown ih =>
      obtain ⟨next, later, rfl⟩ := Option.map_eq_some_iff.mp found
      rw [List.map_cons, List.map_cons, ih later]

end Scope

end EntityFlow
