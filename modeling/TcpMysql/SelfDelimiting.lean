import Mathlib.Data.List.Basic

/-!
# Codes that can be read off the front of a stream

A code is self-delimiting when the first value of a stream and the rest after it
are determined by the stream, whatever follows.  Texts closed by a symbol that
does not occur in them are such a code, and so are sequences of a known number of
self-delimiting parts.  A stream of non-empty self-delimiting words has only one
reading.
-/

variable {Value Symbol : Type*}

/-- A stream that starts with the code of a value of the domain determines the
value and the rest of the stream. -/
def SelfDelimiting (encode : Value → List Symbol) (domain : Value → Prop) : Prop :=
  ∀ first second rest rest', domain first → domain second →
    encode first ++ rest = encode second ++ rest' → first = second ∧ rest = rest'

namespace SelfDelimiting

variable {encode : Value → List Symbol} {domain : Value → Prop}

/-- Texts closed by a symbol that does not occur in them. -/
theorem terminated (stop : Symbol) :
    SelfDelimiting (fun text : List Symbol => text ++ [stop]) (stop ∉ ·) := by
  intro first
  induction first with
  | nil =>
      intro second rest rest' _ absent equal
      cases second with
      | nil => simpa using equal
      | cons symbol second =>
          have same : stop = symbol := (List.cons.inj equal).1
          simp [same] at absent
  | cons symbol first ih =>
      intro second rest rest' firstAbsent absent equal
      cases second with
      | nil =>
          have same : symbol = stop := (List.cons.inj equal).1
          simp [same] at firstAbsent
      | cons other second =>
          obtain ⟨rfl, tails⟩ := List.cons.inj equal
          obtain ⟨rfl, restEq⟩ := ih second rest rest'
            (fun member => firstAbsent (by simp [member]))
            (fun member => absent (by simp [member])) tails
          exact ⟨rfl, restEq⟩

/-- Coding an injective image. -/
theorem comp {Source : Type*} {source : Source → Prop} {image : Source → Value}
    (code : SelfDelimiting encode domain)
    (maps : ∀ value, source value → domain (image value))
    (injective : ∀ first second, source first → source second →
      image first = image second → first = second) :
    SelfDelimiting (fun value => encode (image value)) source := by
  intro first second rest rest' inFirst inSecond equal
  obtain ⟨imageEq, restEq⟩ :=
    code _ _ rest rest' (maps first inFirst) (maps second inSecond) equal
  exact ⟨injective first second inFirst inSecond imageEq, restEq⟩

/-- A fixed text may follow each code. -/
theorem append (code : SelfDelimiting encode domain) (suffix : List Symbol) :
    SelfDelimiting (fun value => encode value ++ suffix) domain := by
  intro first second rest rest' inFirst inSecond equal
  simp only [List.append_assoc] at equal
  obtain ⟨valueEq, tails⟩ := code first second _ _ inFirst inSecond equal
  exact ⟨valueEq, List.append_cancel_left tails⟩

/-- Sequences of a known number of values. -/
theorem flatMap (code : SelfDelimiting encode domain) (count : Nat) :
    SelfDelimiting (fun values : List Value => values.flatMap encode)
      (fun values => values.length = count ∧ ∀ value ∈ values, domain value) := by
  induction count with
  | zero =>
      rintro first second rest rest' ⟨firstLength, -⟩ ⟨secondLength, -⟩ equal
      obtain rfl := List.eq_nil_of_length_eq_zero firstLength
      obtain rfl := List.eq_nil_of_length_eq_zero secondLength
      simpa using equal
  | succ count ih =>
      rintro first second rest rest' ⟨firstLength, inFirst⟩ ⟨secondLength, inSecond⟩ equal
      obtain ⟨value, first, rfl⟩ := List.exists_cons_of_length_eq_add_one firstLength
      obtain ⟨value', second, rfl⟩ := List.exists_cons_of_length_eq_add_one secondLength
      simp only [List.flatMap_cons, List.append_assoc] at equal
      obtain ⟨rfl, tails⟩ := code value value' _ _
        (inFirst value (by simp)) (inSecond value' (by simp)) equal
      obtain ⟨rfl, restEq⟩ := ih first second rest rest'
        ⟨by simpa using firstLength, fun other member => inFirst other (by simp [member])⟩
        ⟨by simpa using secondLength, fun other member => inSecond other (by simp [member])⟩
        tails
      exact ⟨rfl, restEq⟩

/-- Equal streams of non-empty self-delimiting words carry the same values. -/
theorem eq_of_flatMap_eq (code : SelfDelimiting encode domain)
    (nonempty : ∀ value, domain value → encode value ≠ [])
    {first second : List Value} (inFirst : ∀ value ∈ first, domain value)
    (inSecond : ∀ value ∈ second, domain value)
    (equal : first.flatMap encode = second.flatMap encode) : first = second := by
  induction first generalizing second with
  | nil =>
      cases second with
      | nil => rfl
      | cons value second =>
          have empty : encode value = [] := by
            rw [List.flatMap_nil, List.flatMap_cons] at equal
            exact (List.append_eq_nil_iff.mp equal.symm).1
          exact absurd empty (nonempty value (inSecond value (by simp)))
  | cons value first ih =>
      cases second with
      | nil =>
          have empty : encode value = [] := by
            rw [List.flatMap_nil, List.flatMap_cons] at equal
            exact (List.append_eq_nil_iff.mp equal).1
          exact absurd empty (nonempty value (inFirst value (by simp)))
      | cons value' second =>
          rw [List.flatMap_cons, List.flatMap_cons] at equal
          obtain ⟨rfl, tails⟩ := code value value' _ _
            (inFirst value (by simp)) (inSecond value' (by simp)) equal
          rw [ih (fun other member => inFirst other (by simp [member]))
            (fun other member => inSecond other (by simp [member])) tails]

end SelfDelimiting
