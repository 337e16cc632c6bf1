/-
NexCause/PathResolution.lean

Paths with `.` and `..` in them, resolved without looking at the file system.

`resolve` follows a path from a directory; `climb` says what the path does on
its own: how many directories it leaves, and what it then enters.  A path that
leaves a directory may still come back to it, by its name.

Main result: a path followed from `base` ends at or below `base` exactly if the
directories it leaves are those it enters again (`resolve_below_iff`).
-/
import Mathlib.Data.List.Basic

namespace Path

abbrev Segment := List Char

/-- What stands between the slashes of a path, without what is empty. -/
def parts (path : List Char) : List Segment := (path.splitOn '/').filter (· ≠ [])

/-- One segment, from a directory whose innermost name comes first. -/
def enter (directory : List Segment) (segment : Segment) : List Segment :=
  if segment = ['.'] then directory
  else if segment = ['.', '.'] then directory.tail
  else segment :: directory

/-- Where a path leads from a directory. -/
def resolve (base : List Segment) (path : List Segment) : List Segment := path.foldl enter base

/-! ### Climbing -/

/-- How many directories were left, and the names of those that were entered since. -/
structure Climb where
  left : ℕ
  entered : List Segment
  deriving DecidableEq, Repr

/-- One more segment: a step up undoes the last name, if one was entered, and else
leaves a directory. -/
def Climb.enter (r : Climb) (segment : Segment) : Climb :=
  if segment = ['.'] then r
  else if segment = ['.', '.'] then
    match r.entered with
    | [] => ⟨r.left + 1, []⟩
    | _ :: outer => ⟨r.left, outer⟩
  else ⟨r.left, segment :: r.entered⟩

/-- The climb of a whole path. -/
def climb (path : List Segment) : Climb := path.foldl Climb.enter ⟨0, []⟩

/-- Where the climb leads from a directory. -/
def Climb.from (base : List Segment) (r : Climb) : List Segment := r.entered ++ base.drop r.left

/-- One segment leads the climb where it leads the path. -/
theorem from_enter (base : List Segment) (r : Climb) (segment : Segment) :
    (r.enter segment).from base = enter (r.from base) segment := by
  obtain ⟨left, entered⟩ := r
  by_cases hdot : segment = ['.']
  · simp [Climb.enter, enter, hdot]
  · by_cases hup : segment = ['.', '.']
    · cases entered with
      | nil => simp [Climb.enter, enter, Climb.from, hup]
      | cons name outer => simp [Climb.enter, enter, Climb.from, hup]
    · simp [Climb.enter, enter, Climb.from, hdot, hup]

theorem from_foldl (base : List Segment) (path : List Segment) (r : Climb) :
    (path.foldl Climb.enter r).from base = path.foldl enter (r.from base) := by
  induction path generalizing r with
  | nil => rfl
  | cons segment path ih => rw [List.foldl_cons, List.foldl_cons, ih, from_enter]

/-- A path leads where its climb does. -/
theorem resolve_eq_climb (base path : List Segment) : resolve base path = (climb path).from base :=
  (from_foldl base path ⟨0, []⟩).symm

/-- The names of the directories that were left are entered again. -/
def Climb.Returns (base : List Segment) (r : Climb) : Prop := base.take r.left <:+ r.entered

instance (base : List Segment) (r : Climb) : Decidable (r.Returns base) :=
  inferInstanceAs (Decidable (base.take r.left <:+ r.entered))

/-- **A path ends at or below the directory it starts from exactly if it
enters again what it leaves.** -/
theorem resolve_below_iff (base path : List Segment) :
    base <:+ resolve base path ↔ (climb path).Returns base := by
  rw [resolve_eq_climb, Climb.from, Climb.Returns]
  conv_lhs => lhs; rw [← List.take_append_drop (climb path).left base]
  exact List.suffix_append_self_iff

/-! ### Segments -/

theorem parts_nil : parts [] = [] := rfl

/-- A slash parts what stands on its two sides. -/
theorem parts_append (path rest : List Char) :
    parts (path ++ '/' :: rest) = parts path ++ parts rest := by
  rw [parts, List.splitOn_append_cons_self, List.filter_append]
  rfl

theorem parts_slash (path : List Char) : parts ('/' :: path) = parts path := by
  simpa [parts_nil] using parts_append [] path

/-- A name is a single segment. -/
theorem parts_name {name : List Char} (hne : name ≠ []) (hslash : '/' ∉ name) :
    parts name = [name] := by
  rw [parts, List.splitOn_eq_singleton hslash]
  simp [hne]

/-- Slashes at the end make no segment. -/
theorem parts_slashes (path : List Char) (n : ℕ) :
    parts (path ++ List.replicate n '/') = parts path := by
  induction n with
  | zero => rw [List.replicate_zero, List.append_nil]
  | succ n ih =>
    rw [List.replicate_succ', ← List.append_assoc, parts_append, ih, parts_nil, List.append_nil]

end Path
