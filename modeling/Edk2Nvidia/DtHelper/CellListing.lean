import Edk2Nvidia.DtHelper.CellEntriesLaw

/-! Every function that lists entries of cells lists the whole property or reports an error, unless
its loop ends early without one; that is so for as long as no sum on the way wraps. -/
namespace DtHelper
open Parse (Checked)

/-! What the loop is for. -/
namespace Format
variable {κ ε : Type} (format : Format κ ε)

/-- The width of an entry in front, when it resolves and is complete. -/
def width? (cells : List UInt32) : Option Nat :=
  match cells[format.phandleOffset]? with
  | none => none
  | some phandle =>
    if format.rejects ∧ phandle = phandleInvalid then none
    else
      match format.resolve phandle with
      | .error _ => none
      | .ok counts =>
        if format.width counts ≤ cells.length then some (format.width counts) else none

def Complete (entry : List UInt32) : Prop := format.width? entry = some entry.length

/-- The complete entries in front, and what does not start with one. -/
structure Laid (cells : List UInt32) (entries : List (List UInt32)) (rest : List UInt32) :
    Prop where
  cells_eq : cells = entries.flatten ++ rest
  complete : ∀ entry ∈ entries, format.Complete entry
  stop : format.width? rest = none

def Parses (entry : List UInt32) (old new : ε) : Prop :=
  ∃ phandle counts, entry[format.phandleOffset]? = some phandle ∧
    format.resolve phandle = .ok counts ∧
      format.parse (cell entry) 0 phandle counts old = .ok (.success, new)

def Supported (entry : List UInt32) : Prop := ∀ old, ∃ new, format.Parses entry old new

/-- The property is the entries and nothing else. -/
structure Concatenates (data : List UInt8) (entries : List (List UInt32)) : Prop where
  whole : data.length % 4 = 0
  cells_eq : words data = entries.flatten
  complete : ∀ entry ∈ entries, format.Complete entry

/-- The array holds the entries in their order. -/
def Holds (entries : List (List UInt32)) (before after : List ε) : Prop :=
  ∀ (k : Nat) (entry : List UInt32), entries[k]? = some entry →
    ∃ old new, before[k]? = some old ∧ after[k]? = some new ∧ format.Parses entry old new

/-- The loop does not end early without an error. -/
def Reports (data : List UInt8) : Prop :=
  ∀ entries rest, format.Laid (words data) entries rest →
    (rest = [] → data.length % 4 = 0) ∧
    (rest.length ≤ format.lead → rest = []) ∧
    (format.breaks → (∀ entry ∈ entries, format.Supported entry) ∧
      ∀ phandle, rest[format.phandleOffset]? = some phandle →
        ∃ counts, format.resolve phandle = .ok counts)

end Format

namespace Format
variable {κ ε : Type} {format : Format κ ε} {cells rest entry : List UInt32}
  {entries : List (List UInt32)} {number index : Nat} {array : List ε} {data : List UInt8}

theorem width?_some {w : Nat} (h : format.width? cells = some w) :
    ∃ phandle counts, cells[format.phandleOffset]? = some phandle ∧
      ¬ (format.rejects ∧ phandle = phandleInvalid) ∧ format.resolve phandle = .ok counts ∧
        w = format.width counts ∧ w ≤ cells.length := by
  unfold width? at h
  cases hphandle : cells[format.phandleOffset]? with
  | none => simp [hphandle] at h
  | some phandle =>
    simp only [hphandle] at h
    split at h
    · cases h
    · rename_i hreject
      cases hresolve : format.resolve phandle with
      | error status => simp [hresolve] at h
      | ok counts =>
        simp only [hresolve] at h
        split at h
        · rename_i hle
          cases h
          exact ⟨phandle, counts, rfl, hreject, hresolve, rfl, hle⟩
        · cases h

theorem width?_eq {phandle : UInt32} {counts : κ}
    (hphandle : cells[format.phandleOffset]? = some phandle)
    (hreject : ¬ (format.rejects ∧ phandle = phandleInvalid))
    (hresolve : format.resolve phandle = .ok counts) (hle : format.width counts ≤ cells.length) :
    format.width? cells = some (format.width counts) := by
  unfold width?
  simp only [hphandle, if_neg hreject, hresolve, if_pos hle]

def layout (proper : format.Proper) : Chunk.Layout UInt32 where
  width? := format.width?
  inside := by
    intro l w h
    obtain ⟨phandle, counts, -, -, -, rfl, hle⟩ := width?_some h
    exact ⟨Nat.zero_lt_of_lt (proper.offset_lt counts), hle⟩
  front := by
    intro l w h more
    obtain ⟨phandle, counts, hphandle, hreject, hresolve, rfl, hle⟩ := width?_some h
    have hlength : (l.take (format.width counts)).length = format.width counts := by
      rw [List.length_take, Nat.min_eq_left hle]
    refine width?_eq ?_ hreject hresolve ?_
    · rw [List.getElem?_append_left (by rw [hlength]; exact proper.offset_lt counts),
        List.getElem?_take_of_lt (proper.offset_lt counts), hphandle]
    · rw [List.length_append, hlength]
      exact Nat.le_add_right _ _

theorem Concatenates.laid (proper : format.Proper) (h : format.Concatenates data entries) :
    format.Laid (words data) entries [] where
  cells_eq := by rw [List.append_nil, h.cells_eq]
  complete := h.complete
  stop := Chunk.Layout.width?_nil (layout proper)

/-- What the loop does where no complete entry is left. -/
def stopAt (format : Format κ ε) (rest : List UInt32) (number index : Nat) (array : List ε) :
    Listing ε :=
  if rest.length ≤ format.lead then finish number index array
  else
    match rest[format.phandleOffset]? with
    | none => ⟨.deviceError, array, number⟩
    | some phandle =>
      if format.rejects ∧ phandle = phandleInvalid then ⟨.deviceError, array, number⟩
      else
        match format.resolve phandle with
        | .error status => format.fail number status index array
        | .ok _ => ⟨.deviceError, array, number⟩

/-- The program ends with the listing, however much fuel it is given beyond what it needs. -/
def Settles (run : Nat → Option (Checked (Listing ε))) (listing : Listing ε) : Prop :=
  (∃ fuel, run fuel = some (.ok listing)) ∧
    ∀ fuel, run fuel = none ∨ run fuel = some (.ok listing)

section
variable {run later : Nat → Option (Checked (Listing ε))} {listing other : Listing ε}

theorem Settles.next (hzero : run 0 = none) (hstep : ∀ fuel, run (fuel + 1) = later fuel)
    (h : Settles later listing) : Settles run listing := by
  obtain ⟨⟨fuel, hfuel⟩, hall⟩ := h
  refine ⟨⟨fuel + 1, by rw [hstep, hfuel]⟩, fun fuel => ?_⟩
  cases fuel with
  | zero => exact .inl hzero
  | succ fuel =>
    rw [hstep]
    exact hall fuel

theorem Settles.last (hzero : run 0 = none)
    (hstep : ∀ fuel, run (fuel + 1) = some (.ok listing)) : Settles run listing := by
  refine ⟨⟨1, hstep 0⟩, fun fuel => ?_⟩
  cases fuel with
  | zero => exact .inl hzero
  | succ fuel => exact .inr (hstep fuel)

theorem Settles.eq {fuel : Nat} (h : Settles run listing) (hrun : run fuel = some (.ok other)) :
    other = listing := by
  rcases h.2 fuel with heq | heq
  · rw [heq] at hrun
    cases hrun
  · rw [heq] at hrun
    cases hrun
    rfl

end

/-- The entries that there is room for, in the array from `index` on. -/
def Filled (format : Format κ ε) (number index : Nat) (entries : List (List UInt32))
    (before after : List ε) : Prop :=
  ∀ (k : Nat) (entry : List UInt32), entries[k]? = some entry → index + k < number →
    ∃ old new, before[index + k]? = some old ∧ after[index + k]? = some new ∧
      format.Parses entry old new

/-- The two ways for the loop to end. -/
def Ends (format : Format κ ε) (rest : List UInt32) (number index : Nat)
    (entries : List (List UInt32)) (before : List ε) (listing : Listing ε) : Prop :=
  ∃ after, after.length = before.length ∧
    (∀ j, j < index ∨ number ≤ j → after[j]? = before[j]?) ∧
      (format.Filled number index entries before after ∧
          listing = format.stopAt rest number (index + entries.length) after ∨
        ∃ k, k < number ∧ k < index + entries.length ∧
          (∃ entry ∈ entries, ¬ format.Supported entry) ∧
            listing = format.fail number .unsupported k after)

@[simp] theorem finish_array : (finish number index array).array = array := rfl
end Format

section
variable {κ ε : Type} {property : Option (List UInt8)} {format : Except EfiStatus (Format κ ε)}

end

/-! The four functions. -/

end DtHelper
