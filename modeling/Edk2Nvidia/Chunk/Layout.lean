import Mathlib.Data.List.Basic

/-! Lists laid out in chunks of varying width, where the front of a list tells the width of its
first chunk. -/
namespace Chunk

structure Layout (α : Type) where
  width? : List α → Option Nat
  inside : ∀ {l w}, width? l = some w → 0 < w ∧ w ≤ l.length
  /-- The width depends on nothing behind the chunk. -/
  front : ∀ {l w}, width? l = some w → ∀ more, width? (l.take w ++ more) = some w

namespace Layout
variable {α : Type} (layout : Layout α)

def IsChunk (chunk : List α) : Prop := layout.width? chunk = some chunk.length

def splitFrom : Nat → List α → List (List α) × List α
  | 0, l => ([], l)
  | fuel + 1, l =>
    match layout.width? l with
    | none => ([], l)
    | some w =>
      let tail := splitFrom fuel (l.drop w)
      (l.take w :: tail.1, tail.2)

/-- The chunks in front and what does not start with one. -/
def split (l : List α) : List (List α) × List α := layout.splitFrom l.length l

variable {layout} {l rest chunk : List α} {chunks : List (List α)}

theorem IsChunk.length_pos (h : layout.IsChunk chunk) : 0 < chunk.length := (layout.inside h).1

theorem IsChunk.width? (h : layout.IsChunk chunk) (more : List α) :
    layout.width? (chunk ++ more) = some chunk.length := by
  have hfront := layout.front h more
  rwa [List.take_length] at hfront

theorem width?_nil (layout : Layout α) : layout.width? [] = none := by
  cases hw : layout.width? [] with
  | none => rfl
  | some w =>
    have := layout.inside hw
    rw [List.length_nil] at this
    omega

end Layout

end Chunk
