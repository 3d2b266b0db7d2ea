import Mathlib.Algebra.Order.Ring.Nat
import Mathlib.Data.List.Chain
import Mathlib.Tactic.Common

/-! Messages that are cut into numbered segments, and put together again. The numbers count
modulo `m`. -/
namespace Segmentation

structure Segment (T α : Type) where
  tag : T
  seq : Nat
  first : Bool
  last : Bool
  data : List α

section
variable {T α : Type}

/-- Segment `t` has the number behind that of `s`. -/
def Follows (m : Nat) (s t : Segment T α) : Prop := t.seq = (s.seq + 1) % m

/-- The segments carry one tag and successive numbers, the first one begins the message, the
last one and no other ends it, and their data is the message. -/
structure Assembles (m : Nat) (segments : List (Segment T α)) (tag : T) (message : List α) :
    Prop where
  first : ∃ s ∈ segments.head?, s.first = true
  last : ∃ front s, segments = front ++ [s] ∧ s.last = true ∧ ∀ t ∈ front, t.last = false
  tag : ∀ s ∈ segments, s.tag = tag
  order : segments.IsChain (Follows m)
  data : segments.flatMap (·.data) = message

/-- The beginning of a message: `next` is the number its next segment has to have, and `size`
the length of its first segment. -/
structure Opens (m : Nat) (segments : List (Segment T α)) (tag : T) (next size : Nat)
    (front : List α) : Prop where
  first : ∃ s ∈ segments.head?, s.first = true ∧ s.data.length = size
  last : ∀ s ∈ segments, s.last = false
  tag : ∀ s ∈ segments, s.tag = tag
  order : segments.IsChain (Follows m)
  next : ∃ s ∈ segments.getLast?, next = (s.seq + 1) % m
  data : segments.flatMap (·.data) = front

variable {m : Nat} {segments : List (Segment T α)} {tag : T} {next size : Nat} {front : List α}
  {s : Segment T α}

theorem Opens.single (hfirst : s.first = true) (hlast : s.last = false) :
    Opens m [s] s.tag ((s.seq + 1) % m) s.data.length s.data where
  first := ⟨s, rfl, hfirst, rfl⟩
  last := fun t ht => by rwa [List.mem_singleton.mp ht]
  tag := fun t ht => by rw [List.mem_singleton.mp ht]
  order := .singleton s
  next := ⟨s, rfl, rfl⟩
  data := List.append_nil _

theorem Assembles.single (hfirst : s.first = true) (hlast : s.last = true) :
    Assembles m [s] s.tag s.data where
  first := ⟨s, rfl, hfirst⟩
  last := ⟨[], s, rfl, hlast, nofun⟩
  tag := fun t ht => by rw [List.mem_singleton.mp ht]
  order := .singleton s
  data := List.append_nil _

section
variable (opens : Opens m segments tag next size front) (htag : s.tag = tag) (hnext : s.seq = next)
include opens htag hnext

theorem Opens.extended : (segments ++ [s]).IsChain (Follows m) ∧ (∀ t ∈ segments ++ [s], t.tag = tag) ∧
    (segments ++ [s]).flatMap (·.data) = front ++ s.data ∧ (segments ++ [s]).head? = segments.head? := by
  obtain ⟨before, hbefore, rfl⟩ := opens.next
  refine ⟨?_, fun t ht => ?_, ?_, ?_⟩
  · refine opens.order.append (.singleton s) fun t ht u hu => ?_
    cases hu
    cases ht.symm.trans hbefore
    exact hnext
  · rcases List.mem_append.mp ht with ht | ht
    · exact opens.tag t ht
    · rw [List.mem_singleton.mp ht]
      exact htag
  · rw [List.flatMap_append, opens.data]
    simp
  · obtain ⟨first, hfirst, -⟩ := opens.first
    rw [List.head?_append, Option.mem_def.mp hfirst]
    rfl

theorem Opens.snoc (hlast : s.last = false) :
    Opens m (segments ++ [s]) tag ((s.seq + 1) % m) size (front ++ s.data) := by
  obtain ⟨horder, htags, hdata, hhead⟩ := opens.extended htag hnext
  refine ⟨hhead ▸ opens.first, fun t ht => ?_, htags, horder, ⟨s, ?_, rfl⟩, hdata⟩
  · rcases List.mem_append.mp ht with ht | ht
    · exact opens.last t ht
    · rwa [List.mem_singleton.mp ht]
  · rw [List.getLast?_concat]
    rfl

theorem Opens.close (hlast : s.last = true) : Assembles m (segments ++ [s]) tag (front ++ s.data) := by
  obtain ⟨horder, htags, hdata, hhead⟩ := opens.extended htag hnext
  obtain ⟨first, hfirst, hbegins, -⟩ := opens.first
  refine ⟨⟨first, ?_, hbegins⟩, ⟨segments, s, rfl, hlast, opens.last⟩, htags, horder, hdata⟩
  rw [hhead]
  exact hfirst

end

end

end Segmentation
