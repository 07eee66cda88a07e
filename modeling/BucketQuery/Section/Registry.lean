import BucketQuery.Error
import BucketQuery.Section.Query

/-!
The registry of sections, by name. Names are not blank and no two are equal; sections are kept in the
order of their names, so a registry does not depend on the order it was filled in. -/
namespace BucketQuery.Section

structure Registry where
  sections : List Definition
  sorted : sections.Pairwise fun a b => a.name < b.name

namespace Registry

def empty : Registry := ⟨[], .nil⟩

/-- Puts a section where its name belongs. -/
def place (s : Definition) : List Definition → List Definition
  | [] => [s]
  | t :: rest => if s.name < t.name then s :: t :: rest else t :: place s rest

theorem mem_place {s t : Definition} {l : List Definition} :
    t ∈ place s l ↔ t = s ∨ t ∈ l := by
  induction l with
  | nil => simp [place]
  | cons u rest ih =>
    unfold place
    split
    · simp
    · simp only [List.mem_cons, ih]
      constructor
      · rintro (h | h | h) <;> simp [h]
      · rintro (h | h | h) <;> simp [h]

theorem sorted_place {s : Definition} {l : List Definition}
    (hl : l.Pairwise fun a b => a.name < b.name) (hs : ∀ t ∈ l, t.name ≠ s.name) :
    (place s l).Pairwise fun a b => a.name < b.name := by
  induction l with
  | nil => simp [place]
  | cons t rest ih =>
    obtain ⟨ht, hrest⟩ := List.pairwise_cons.mp hl
    unfold place
    split
    · next h =>
      refine List.pairwise_cons.mpr ⟨fun u hu => ?_, hl⟩
      rcases List.mem_cons.mp hu with rfl | hu
      · exact h
      · exact String.lt_trans h (ht u hu)
    · next h =>
      refine List.pairwise_cons.mpr
        ⟨fun u hu => ?_, ih hrest fun u hu => hs u (List.mem_cons_of_mem t hu)⟩
      rcases mem_place.mp hu with rfl | hu
      · exact Std.lt_of_le_of_ne (String.not_lt.mp h) (hs t List.mem_cons_self)
      · exact ht u hu

variable (r : Registry)

def get? (name : String) : Option Definition := r.sections.find? fun s => s.name == name

def names : List String := r.sections.map Definition.name

def size : Nat := r.sections.length

def isEmpty : Bool := r.sections.isEmpty

theorem name_ne_of_get?_none {name : String} (h : r.get? name = none) :
    ∀ t ∈ r.sections, t.name ≠ name := by
  intro t ht
  have := List.find?_eq_none.mp h t ht
  simpa using this

def insert (s : Definition) : Result Registry :=
  if Text.allBlank s.name then .error (.invalid .blankSectionName)
  else match h : r.get? s.name with
    | some _ => .error (.invalid (.duplicateSection s.name))
    | none => .ok ⟨place s r.sections, sorted_place r.sorted (r.name_ne_of_get?_none h)⟩

def ofList (sections : List Definition) : Result Registry := sections.foldlM insert empty

end Registry

end BucketQuery.Section
