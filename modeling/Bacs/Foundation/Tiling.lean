import Mathlib.Data.List.Nodup
import Mathlib.Logic.Function.Basic

/-!
# Tiles on cells

Every tile has a list of cells, and a board says which tile lies on a cell.
A board is tiled if each tile on it lies on all of its cells and nowhere else.
Tiles are taken off as a whole, and put on cells that are free.
-/

namespace Bacs.Foundation

variable {Cell Tile Copy : Type} {cells : Tile → List Cell}
  {board before after : Cell → Option Tile} {cell other : Cell}
  {tile : Tile}

def fill [DecidableEq Cell] (board : Cell → Option Tile) (area : List Cell)
    (content : Option Tile) : Cell → Option Tile :=
  area.foldl (fun board cell => Function.update board cell content) board

@[simp] theorem fill_apply [DecidableEq Cell] (area : List Cell)
    (content : Option Tile) :
    fill board area content cell =
      if cell ∈ area then content else board cell := by
  induction area generalizing board with
  | nil => rfl
  | cons first area induction =>
      rw [fill, List.foldl_cons, ← fill, induction]
      by_cases here : cell = first
      · subst here
        simp
      · simp [here]

def Lies (board : Cell → Option Tile) (tile : Tile) : Prop :=
  ∃ cell, board cell = some tile

/-- Each tile lies on its cells and nowhere else. -/
def Tiled (cells : Tile → List Cell) (board : Cell → Option Tile) : Prop :=
  ∀ cell tile, board cell = some tile →
    cell ∈ cells tile ∧ ∀ other ∈ cells tile, board other = some tile

namespace Tiled

theorem empty : Tiled cells fun _ => none := by
  intro cell tile nothing
  cases nothing

theorem same_of_meet (tiled : Tiled cells board) (lies : Lies board tile)
    (member : cell ∈ cells tile) : board cell = some tile := by
  obtain ⟨first, lies⟩ := lies
  exact (tiled first tile lies).2 cell member

theorem keep (tiled : Tiled cells before) {kept : Tile → Prop}
    (rest : ∀ cell tile, after cell = some tile ↔
      before cell = some tile ∧ kept tile) :
    Tiled cells after := by
  intro cell tile lies
  obtain ⟨lies, isKept⟩ := (rest cell tile).mp lies
  obtain ⟨member, covered⟩ := tiled cell tile lies
  exact ⟨member, fun other member =>
    (rest other tile).mpr ⟨covered other member, isKept⟩⟩

/-- What lies on the board after one tile has been taken off. -/
theorem take [DecidableEq Cell] (tiled : Tiled cells board)
    (lies : board cell = some tile) {present : Tile} :
    fill board (cells tile) none other = some present ↔
      board other = some present ∧ present ≠ tile := by
  obtain ⟨_, covered⟩ := tiled cell tile lies
  rw [fill_apply]
  split
  · rename_i inside
    constructor
    · intro nothing
      cases nothing
    · rintro ⟨there, different⟩
      rw [covered other inside] at there
      exact absurd (Option.some.inj there).symm different
  · rename_i outside
    constructor
    · intro there
      refine ⟨there, ?_⟩
      intro same
      subst same
      exact outside (tiled other present there).1
    · exact fun there => there.1

theorem put [DecidableEq Cell] (tiled : Tiled cells board)
    (free : ∀ cell ∈ cells tile, board cell = none) :
    Tiled cells (fill board (cells tile) (some tile)) := by
  intro cell present lies
  rw [fill_apply] at lies
  split at lies
  · rename_i member
    cases lies
    refine ⟨member, ?_⟩
    intro other member
    rw [fill_apply, if_pos member]
  · obtain ⟨member, covered⟩ := tiled cell present lies
    refine ⟨member, ?_⟩
    intro other member
    rw [fill_apply, if_neg]
    · exact covered other member
    · intro taken
      have nothing := free other taken
      rw [covered other member] at nothing
      cases nothing

/-- If every cell gets its own copy of the tile on it, the board stays tiled
just when every tile has only one cell. -/
theorem copy_iff (tiled : Tiled cells board) {cells' : Copy → List Cell}
    {copy : Cell → Tile → Copy}
    (same : ∀ cell tile, cells' (copy cell tile) = cells tile)
    (own : ∀ cell other tile, copy cell tile = copy other tile →
      cell = other) :
    Tiled cells' (fun cell => (board cell).map (copy cell)) ↔
      ∀ cell tile, board cell = some tile →
        ∀ other ∈ cells tile, other = cell := by
  constructor
  · intro copied cell tile lies other member
    obtain ⟨_, covered⟩ := copied cell (copy cell tile)
      (Option.map_eq_some_iff.mpr ⟨tile, lies, rfl⟩)
    have there : (board other).map (copy other) = some (copy cell tile) :=
      covered other (by rw [same]; exact member)
    rw [(tiled cell tile lies).2 other member] at there
    exact own other cell tile (Option.some.inj there)
  · intro alone cell made copied
    obtain ⟨tile, lies, isCopy⟩ := Option.map_eq_some_iff.mp copied
    subst isCopy
    rw [same]
    refine ⟨(tiled cell tile lies).1, ?_⟩
    intro other member
    rw [alone cell tile lies other member]
    exact copied

end Tiled

end Bacs.Foundation
