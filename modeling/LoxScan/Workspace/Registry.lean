/-! # Registries

A registry keeps values under names.  `find?_insert` says all there is to know about it.
-/

namespace LoxScan

/-- Values by name.  Of two entries with one name the first counts. -/
structure Registry (Value : Type) where
  entries : List (String × Value) := []
deriving DecidableEq, Repr

namespace Registry

variable {Value : Type}

def empty : Registry Value :=
  ⟨[]⟩

def find? (r : Registry Value) (name : String) : Option Value :=
  r.entries.lookup name

/-- Puts a value under a name, in place of the value that was there. -/
def insert (r : Registry Value) (name : String) (value : Value) : Registry Value :=
  ⟨(name, value) :: r.entries.filter fun entry => entry.1 != name⟩

def mapValues (r : Registry Value) (f : Value → Value) : Registry Value :=
  ⟨r.entries.map fun entry => (entry.1, f entry.2)⟩

theorem lookup_filter_ne {name other : String} (h : other ≠ name)
    (entries : List (String × Value)) :
    (entries.filter fun entry => entry.1 != name).lookup other = entries.lookup other := by
  have hne : (other == name) = false := beq_eq_false_iff_ne.2 h
  induction entries with
  | nil => rfl
  | cons entry rest ih =>
    obtain ⟨key, value⟩ := entry
    by_cases hk : key = name
    · subst hk
      simpa [List.lookup_cons, hne] using ih
    · simp [List.lookup_cons, hk, ih]

theorem find?_insert (r : Registry Value) (name other : String) (value : Value) :
    (r.insert name value).find? other = if other = name then some value else r.find? other := by
  by_cases h : other = name
  · simp [find?, insert, h]
  · have hne : (other == name) = false := beq_eq_false_iff_ne.2 h
    simp [find?, insert, List.lookup_cons, h, hne, lookup_filter_ne h]

@[simp] theorem find?_mapValues (r : Registry Value) (f : Value → Value) (name : String) :
    (r.mapValues f).find? name = (r.find? name).map f := by
  obtain ⟨entries⟩ := r
  simp only [find?, mapValues]
  induction entries with
  | nil => rfl
  | cons entry rest ih =>
    obtain ⟨key, value⟩ := entry
    simp only [List.map_cons, List.lookup_cons, ih]
    split <;> rfl

end Registry

end LoxScan
