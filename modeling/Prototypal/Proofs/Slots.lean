import Mathlib.Tactic.Common
import Prototypal.Graph.Slots

/-!
# Ordinary keys in slots

An ordinary key is answered from the table of the slots and from nowhere else, and writes to it
change the table alone.  The reserved keys stand for other parts of the slots, so the operations on
slots ask first which key they are given; the lemmas here say what is left of an operation once that
has been asked.
-/

namespace Prototypal

namespace Slots

variable {s : Slots} {j k : Key}

lemma read?_of_not_isReserved (hk : k.isReserved = false) :
    s.read? k = (s.find? k).map .stored := by
  have identity : k ≠ .identity := by rintro rfl; cases hk
  have readonly : k ≠ .readonly := by rintro rfl; cases hk
  have parent : k ≠ .parent := by rintro rfl; cases hk
  have stepparents : k ≠ .stepparents := by rintro rfl; cases hk
  simp only [read?, identity, readonly, parent, stepparents, if_false]

/-- An ordinary key is put into the table. -/
lemma put_of_not_isReserved (hk : k.isReserved = false) (v : ObjectId) (p : Payload) :
    s.put k v p = some { s with table := (k, v) :: s.without k } := by
  have parent : k ≠ .parent := by rintro rfl; cases hk
  have stepparents : k ≠ .stepparents := by rintro rfl; cases hk
  simp only [put, parent, stepparents, if_false]

/-- An ordinary key is taken out of the table. -/
lemma take_of_not_isReserved (hk : k.isReserved = false) :
    s.take k = ((s.find? k).map .stored, { s with table := s.without k }) := by
  have parent : k ≠ .parent := by rintro rfl; cases hk
  have stepparents : k ≠ .stepparents := by rintro rfl; cases hk
  simp only [take, parent, stepparents, if_false]

/-! ## The table without a key -/

@[simp] lemma lookup_without_self (s : Slots) (k : Key) : (s.without k).lookup k = none := by
  rw [List.lookup_eq_none_iff]
  intro e he
  rw [bne_comm]
  exact (List.mem_filter.mp he).2

lemma lookup_without (s : Slots) (hne : j ≠ k) : (s.without k).lookup j = s.table.lookup j := by
  simp only [without]
  induction s.table with
  | nil => rfl
  | cons x table ih =>
      obtain ⟨i, v⟩ := x
      by_cases hi : i = k
      · subst hi
        have other : (j == i) = false := by simpa using hne
        simp [List.lookup_cons, other, ih]
      · simp [List.lookup_cons, hi, ih]

end Slots

end Prototypal
