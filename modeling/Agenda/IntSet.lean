/-!
# Finite sets of integers

An `IntSet` keeps its elements in increasing order, each once, so two sets
with the same members are equal (`IntSet.ext`) and the elements come out in
order wherever a set is written or searched.
-/

namespace Agenda

/-- A finite set of integers, as the increasing list of its elements. -/
structure IntSet where
  elements : List Int
  increasing : elements.Pairwise (· < ·)
  deriving DecidableEq

namespace IntSet

instance : EmptyCollection IntSet := ⟨⟨[], .nil⟩⟩

instance : Inhabited IntSet := ⟨∅⟩

instance : Membership Int IntSet := ⟨fun set value => value ∈ set.elements⟩

instance (value : Int) (set : IntSet) : Decidable (value ∈ set) :=
  inferInstanceAs (Decidable (value ∈ set.elements))

/-- Puts a value in its place in an increasing list, unless it is there. -/
def place (value : Int) : List Int → List Int
  | [] => [value]
  | first :: later =>
    if value < first then value :: first :: later
    else if value = first then first :: later
    else first :: place value later

@[simp]
theorem mem_place {value other : Int} {list : List Int} :
    other ∈ place value list ↔ other = value ∨ other ∈ list := by
  induction list with
  | nil => simp [place]
  | cons first later ih =>
    unfold place
    split
    · simp
    · split
      · simp_all
      · simp only [List.mem_cons, ih]
        exact or_left_comm

theorem pairwise_place {value : Int} {list : List Int}
    (increasing : list.Pairwise (· < ·)) : (place value list).Pairwise (· < ·) := by
  induction list with
  | nil => simp [place]
  | cons first later ih =>
    obtain ⟨above, tail⟩ := List.pairwise_cons.1 increasing
    unfold place
    split
    · rename_i below
      refine List.pairwise_cons.2 ⟨?_, increasing⟩
      intro other member
      rcases List.mem_cons.1 member with rfl | member
      · exact below
      · exact Int.lt_trans below (above other member)
    · split
      · exact increasing
      · refine List.pairwise_cons.2 ⟨?_, ih tail⟩
        intro other member
        rcases mem_place.1 member with rfl | member
        · omega
        · exact above other member

/-- Sets with the same members are equal. -/
@[ext]
theorem ext {first second : IntSet} (same : ∀ value, value ∈ first ↔ value ∈ second) :
    first = second := by
  have nodup (set : IntSet) : set.elements.Nodup := set.increasing.imp Int.ne_of_lt
  have permuted : first.elements.Perm second.elements :=
    (List.perm_ext_iff_of_nodup (nodup first) (nodup second)).2 same
  have listed : first.elements = second.elements := by
    refine permuted.eq_of_pairwise ?_ first.increasing second.increasing
    intro value other _ _ below above
    exact absurd below (Int.lt_asymm above)
  cases first
  cases second
  cases listed
  rfl

/-- The set with one more member. -/
def insert (set : IntSet) (value : Int) : IntSet :=
  ⟨place value set.elements, pairwise_place set.increasing⟩

/-- The set of the values of a list. -/
def ofList (values : List Int) : IntSet :=
  values.foldr (fun value set => set.insert value) ∅

/-- A set without members. -/
def isEmpty (set : IntSet) : Bool :=
  set.elements.isEmpty

@[simp]
theorem not_mem_empty {value : Int} : ¬ value ∈ (∅ : IntSet) :=
  List.not_mem_nil

@[simp]
theorem mem_insert {value other : Int} {set : IntSet} :
    other ∈ set.insert value ↔ other = value ∨ other ∈ set :=
  mem_place

@[simp]
theorem mem_ofList {value : Int} {values : List Int} :
    value ∈ ofList values ↔ value ∈ values := by
  induction values with
  | nil => simp [ofList]
  | cons first later ih =>
    simp only [ofList, List.foldr_cons, mem_insert, List.mem_cons] at ih ⊢
    rw [ih]

end IntSet

end Agenda
