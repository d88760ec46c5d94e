import Mathlib.Data.List.Infix
import Mathlib.Order.Bounds.Basic
import Mathlib.Order.Lattice.Nat
import SLFront.Text.EditDistance

/-!
# Edit scripts

An edit inserts, deletes or substitutes a single element at some position, and a script is a list of
edits that are made one after the other. The Levenshtein distance is the length of the shortest
scripts that turn one list into the other (`levenshtein`). It obeys a recurrence at the ends of the
lists (`levenshtein_concat_concat`): whatever a script does in between, it gets rid of the last
element of the one list, or it comes by the last element of the other, or it turns the one into the
other. The rows that are computed for the edit distance follow this recurrence (`nextRow_eq`,
`lastRow_eq`), so the edit distance is the Levenshtein distance (`editDistance_isLeast`).

## Main definitions

* `Edit`, `Edit.perform?`, `Edit.run?` — edits and scripts, and what they make of a list.
* `TurnsInto` — there is a script of a given length.
* `levenshtein` — the length of the shortest scripts.
* `levenshteinRow` — the distances to a list and to what it goes on to.
-/
namespace SLFront.Text

/-- A change of a single element, at a position that is counted from zero. -/
inductive Edit (α : Type)
  | insert (i : Nat) (x : α)
  | delete (i : Nat)
  | substitute (i : Nat) (x : α)
deriving DecidableEq, Repr

variable {α : Type}

/-- The list after the edit. There is none if the list does not have the position. -/
def Edit.perform? (e : Edit α) (xs : List α) : Option (List α) :=
  match e with
  | insert i x => if i ≤ xs.length then some (xs.insertIdx i x) else none
  | delete i => if i < xs.length then some (xs.eraseIdx i) else none
  | substitute i x => if i < xs.length then some (xs.set i x) else none

/-- The list after all edits of a script. -/
def Edit.run? : List (Edit α) → List α → Option (List α)
  | [], xs => some xs
  | e :: es, xs => (e.perform? xs).bind (run? es)

/-- A script of `n` edits turns one list into the other (`TurnsInto.iff_script`). -/
inductive TurnsInto : Nat → List α → List α → Prop
  | refl (xs : List α) : TurnsInto 0 xs xs
  | edit {n : Nat} {e : Edit α} {xs ys zs : List α} (he : e.perform? xs = some zs)
    (rest : TurnsInto n zs ys) : TurnsInto (n + 1) xs ys

/-- The length of the shortest scripts that turn `xs` into `ys`. -/
noncomputable def levenshtein (xs ys : List α) : Nat := sInf {n | TurnsInto n xs ys}

/-! ## Edits -/

namespace Edit
variable {e : Edit α} {i : Nat} {xs ys zs : List α} {x : α}

@[simp] theorem perform?_insert :
    (insert i x).perform? xs = some ys ↔ i ≤ xs.length ∧ xs.insertIdx i x = ys := by
  simp [perform?]

@[simp] theorem perform?_delete :
    (delete i).perform? xs = some ys ↔ i < xs.length ∧ xs.eraseIdx i = ys := by
  simp [perform?]

@[simp] theorem perform?_substitute :
    (substitute i x).perform? xs = some ys ↔ i < xs.length ∧ xs.set i x = ys := by
  simp [perform?]

theorem insertIdx_append (h : i ≤ xs.length) (zs : List α) :
    (xs ++ zs).insertIdx i x = xs.insertIdx i x ++ zs := by
  induction xs generalizing i with
  | nil =>
    obtain rfl : i = 0 := by simpa using h
    simp
  | cons z xs ih =>
    cases i with
    | zero => simp
    | succ i => simp [ih (Nat.le_of_succ_le_succ h)]

/-- Every edit can be undone by an edit. -/
theorem exists_undo (h : e.perform? xs = some ys) : ∃ f : Edit α, f.perform? ys = some xs := by
  cases e with
  | insert i x =>
    obtain ⟨hi, rfl⟩ := perform?_insert.1 h
    refine ⟨delete i, perform?_delete.2 ⟨?_, List.eraseIdx_insertIdx_self x⟩⟩
    rw [List.length_insertIdx_of_le_length hi]
    omega
  | delete i =>
    obtain ⟨hi, rfl⟩ := perform?_delete.1 h
    refine ⟨insert i xs[i], perform?_insert.2 ⟨?_, List.insertIdx_eraseIdx_getElem hi⟩⟩
    rw [List.length_eraseIdx_of_lt hi]
    omega
  | substitute i x =>
    obtain ⟨hi, rfl⟩ := perform?_substitute.1 h
    refine ⟨substitute i xs[i], perform?_substitute.2 ⟨?_, ?_⟩⟩
    · rwa [List.length_set]
    · rw [List.set_set, List.set_getElem_self]

/-- What stands behind a list does not hinder an edit of the list. -/
theorem perform?_append (h : e.perform? xs = some ys) (zs : List α) :
    e.perform? (xs ++ zs) = some (ys ++ zs) := by
  have hle : xs.length ≤ (xs ++ zs).length := by simp
  cases e with
  | insert i x =>
    obtain ⟨hi, rfl⟩ := perform?_insert.1 h
    exact perform?_insert.2 ⟨hi.trans hle, insertIdx_append hi zs⟩
  | delete i =>
    obtain ⟨hi, rfl⟩ := perform?_delete.1 h
    exact perform?_delete.2 ⟨hi.trans_le hle, List.eraseIdx_append_of_lt_length hi zs⟩
  | substitute i x =>
    obtain ⟨hi, rfl⟩ := perform?_substitute.1 h
    exact perform?_substitute.2 ⟨hi.trans_le hle, List.set_append_left i x hi⟩

/-- An edit makes a list longer by one element at most. -/
theorem length_le (h : e.perform? xs = some ys) : ys.length ≤ xs.length + 1 := by
  cases e with
  | insert i x =>
    obtain ⟨hi, rfl⟩ := perform?_insert.1 h
    exact (List.length_insertIdx_of_le_length hi x).le
  | delete i =>
    obtain ⟨-, rfl⟩ := perform?_delete.1 h
    exact (List.length_eraseIdx_le xs i).trans (Nat.le_succ _)
  | substitute i x =>
    obtain ⟨-, rfl⟩ := perform?_substitute.1 h
    rw [List.length_set]
    exact Nat.le_succ _

theorem perform?_insert_last (xs : List α) (x : α) :
    (insert xs.length x).perform? xs = some (xs ++ [x]) :=
  perform?_insert.2 ⟨Nat.le_refl _, List.insertIdx_length_self⟩

theorem perform?_delete_last (xs : List α) (x : α) :
    (delete xs.length).perform? (xs ++ [x]) = some xs := by
  refine perform?_delete.2 ⟨by simp, ?_⟩
  rw [List.eraseIdx_append_of_length_le (Nat.le_refl _)]
  simp

theorem perform?_substitute_last (xs : List α) (x y : α) :
    (substitute xs.length y).perform? (xs ++ [x]) = some (xs ++ [y]) := by
  refine perform?_substitute.2 ⟨by simp, ?_⟩
  rw [List.set_append_right _ _ (Nat.le_refl _)]
  simp

/-- An edit is made in front of the last element; or it puts an element behind it, deletes it, or
puts another one in its place. -/
theorem perform?_concat (h : e.perform? (xs ++ [x]) = some zs) :
    (∃ ys, e.perform? xs = some ys ∧ zs = ys ++ [x]) ∨ (∃ z, zs = xs ++ [x] ++ [z]) ∨ zs = xs ∨
      ∃ z, zs = xs ++ [z] := by
  have hlast : ∀ {j : Nat}, j < (xs ++ [x]).length → ¬ j < xs.length → j = xs.length := by
    intro j hj hnot
    rw [List.length_append, List.length_singleton] at hj
    omega
  cases e with
  | insert i z =>
    obtain ⟨hi, rfl⟩ := perform?_insert.1 h
    by_cases hfront : i ≤ xs.length
    · exact .inl ⟨_, perform?_insert.2 ⟨hfront, rfl⟩, insertIdx_append hfront [x]⟩
    · obtain rfl : i = (xs ++ [x]).length := by
        rw [List.length_append, List.length_singleton] at hi ⊢
        omega
      exact .inr (.inl ⟨z, List.insertIdx_length_self⟩)
  | delete i =>
    obtain ⟨hi, rfl⟩ := perform?_delete.1 h
    by_cases hfront : i < xs.length
    · refine .inl ⟨_, perform?_delete.2 ⟨hfront, rfl⟩, ?_⟩
      exact List.eraseIdx_append_of_lt_length hfront [x]
    · obtain rfl := hlast hi hfront
      exact .inr (.inr (.inl (perform?_delete.1 (perform?_delete_last xs x)).2))
  | substitute i z =>
    obtain ⟨hi, rfl⟩ := perform?_substitute.1 h
    by_cases hfront : i < xs.length
    · exact .inl ⟨_, perform?_substitute.2 ⟨hfront, rfl⟩, List.set_append_left i z hfront⟩
    · obtain rfl := hlast hi hfront
      exact .inr (.inr (.inr ⟨z, (perform?_substitute.1 (perform?_substitute_last xs x z)).2⟩))

end Edit

/-! ## Scripts -/

namespace TurnsInto
variable {e : Edit α} {m n : Nat} {xs ys zs : List α} {x y : α}

theorem iff_script : TurnsInto n xs ys ↔ ∃ es, Edit.run? es xs = some ys ∧ es.length = n := by
  constructor
  · intro h
    induction h with
    | refl xs => exact ⟨[], rfl, rfl⟩
    | @edit n e xs ys zs he _ ih =>
      obtain ⟨es, hes, rfl⟩ := ih
      exact ⟨e :: es, by rw [Edit.run?, he, Option.bind_some, hes], rfl⟩
  · rintro ⟨es, hes, rfl⟩
    induction es generalizing xs with
    | nil =>
      obtain rfl := Option.some.inj hes
      exact .refl xs
    | cons e es ih =>
      obtain ⟨zs, he, hrest⟩ := Option.bind_eq_some_iff.1 hes
      exact .edit he (ih hrest)

/-- A script makes no edit, or it makes one first. -/
theorem none_or_edit (h : TurnsInto n xs ys) :
    (n = 0 ∧ xs = ys) ∨ ∃ (m : Nat) (e : Edit α) (zs : List α), n = m + 1 ∧
      e.perform? xs = some zs ∧ TurnsInto m zs ys := by
  cases h with
  | refl => exact .inl ⟨rfl, rfl⟩
  | edit he rest => exact .inr ⟨_, _, _, rfl, he, rest⟩

/-- One more edit can be made after a script. -/
theorem concat (h : TurnsInto n xs zs) (he : e.perform? zs = some ys) :
    TurnsInto (n + 1) xs ys := by
  induction h with
  | refl => exact .edit he (.refl ys)
  | edit hf _ ih => exact .edit hf (ih he)

/-- Every script can be undone by one of the same length. -/
theorem symm (h : TurnsInto n xs ys) : TurnsInto n ys xs := by
  induction h with
  | refl xs => exact .refl xs
  | edit he _ ih =>
    obtain ⟨f, hf⟩ := Edit.exists_undo he
    exact ih.concat hf

/-- What stands behind a list does not hinder a script. -/
theorem append (h : TurnsInto n xs ys) (zs : List α) : TurnsInto n (xs ++ zs) (ys ++ zs) := by
  induction h with
  | refl xs => exact .refl (xs ++ zs)
  | edit he _ ih => exact .edit (Edit.perform?_append he zs) ih

theorem length_le (h : TurnsInto n xs ys) : ys.length ≤ xs.length + n := by
  induction h with
  | refl xs => exact Nat.le_refl _
  | edit he _ ih =>
    have := Edit.length_le he
    omega

/-- A list can be inserted element by element. -/
theorem of_nil (ys : List α) : TurnsInto ys.length [] ys := by
  induction ys using List.reverseRecOn with
  | nil => exact .refl []
  | append_singleton ys y ih =>
    rw [List.length_append, List.length_singleton]
    exact ih.concat (Edit.perform?_insert_last ys y)

theorem delete_last (h : TurnsInto n xs ys) (x : α) : TurnsInto (n + 1) (xs ++ [x]) ys :=
  .edit (Edit.perform?_delete_last xs x) h

theorem insert_last (h : TurnsInto n xs ys) (y : α) : TurnsInto (n + 1) xs (ys ++ [y]) :=
  h.concat (Edit.perform?_insert_last ys y)

/-- The last element becomes that of the other list, by no edit if they are the same. -/
theorem match_last [DecidableEq α] (h : TurnsInto n xs ys) (x y : α) :
    TurnsInto (n + if x = y then 0 else 1) (xs ++ [x]) (ys ++ [y]) := by
  split
  · rename_i hxy
    rw [hxy]
    exact h.append [y]
  · exact (h.append [x]).concat (Edit.perform?_substitute_last ys x y)

end TurnsInto

/-- What a script of at most `n` edits from `xs ++ [x]` to `ys ++ [y]` can do about the last
elements: delete the one before all else, insert the other after all else, or turn the one into the
other and leave both alone otherwise. -/
inductive SettlesLast [DecidableEq α] (n : Nat) (xs : List α) (x : α) (ys : List α) (y : α) : Prop
  | deletes {m : Nat} (h : TurnsInto m xs (ys ++ [y])) (hle : m + 1 ≤ n)
  | inserts {m : Nat} (h : TurnsInto m (xs ++ [x]) ys) (hle : m + 1 ≤ n)
  | turns {m : Nat} (h : TurnsInto m xs ys) (hle : (m + if x = y then 0 else 1) ≤ n)

section
variable [DecidableEq α] {m n : Nat} {xs ys : List α} {x y : α}

theorem SettlesLast.mono (h : SettlesLast m xs x ys y) (hle : m ≤ n) : SettlesLast n xs x ys y := by
  cases h with
  | deletes h hm => exact .deletes h (hm.trans hle)
  | inserts h hm => exact .inserts h (hm.trans hle)
  | turns h hm => exact .turns h (hm.trans hle)

/-- No script is shorter than one that settles the matter of the last elements in one of these
ways. -/
theorem TurnsInto.settlesLast (h : TurnsInto n (xs ++ [x]) (ys ++ [y])) :
    SettlesLast n xs x ys y := by
  induction n using Nat.strongRecOn generalizing xs x with
  | _ n ih =>
    obtain ⟨rfl, hsame⟩ | ⟨n, e, zs, rfl, he, hrest⟩ := h.none_or_edit
    · obtain ⟨rfl, hlast⟩ := List.append_inj' hsame rfl
      obtain rfl := (List.cons.inj hlast).1
      exact .turns (.refl xs) (by simp)
    have hn : n < n + 1 := Nat.lt_succ_self n
    obtain ⟨us, hus, rfl⟩ | ⟨z, rfl⟩ | rfl | ⟨z, rfl⟩ := Edit.perform?_concat he
    · -- The edit is made in front of the last element, so it can be made without that one too.
      cases ih n hn hrest with
      | deletes h hle => exact .deletes (.edit hus h) (by omega)
      | inserts h hle => exact .inserts (.edit he h) (by omega)
      | turns h hle => exact .turns (.edit hus h) (by omega)
    · -- Now the inserted element is the last one. If it is deleted, the edit was in vain.
      cases ih n hn hrest with
      | @deletes m h hle => exact (ih m (by omega) h).mono (by omega)
      | inserts h hle => exact .inserts (.edit he h) (by omega)
      | turns h hle => exact .inserts h (by split at hle <;> omega)
    · exact .deletes hrest (Nat.le_refl _)
    · -- Another element is the last one now. If it is deleted, so may be the first one at once.
      cases ih n hn hrest with
      | deletes h hle => exact .deletes h (by omega)
      | inserts h hle => exact .inserts (.edit he h) (by omega)
      | turns h hle => exact .turns h (by split <;> split at hle <;> omega)

end

/-! ## The Levenshtein distance -/

section
variable {n : Nat} {xs ys : List α} {x y : α}

theorem exists_turnsInto (xs ys : List α) : ∃ n, TurnsInto n xs ys := by
  induction xs using List.reverseRecOn with
  | nil => exact ⟨_, .of_nil ys⟩
  | append_singleton xs x ih =>
    obtain ⟨n, hn⟩ := ih
    exact ⟨n + 1, hn.delete_last x⟩

theorem turnsInto_levenshtein (xs ys : List α) : TurnsInto (levenshtein xs ys) xs ys :=
  Nat.sInf_mem (s := {n | TurnsInto n xs ys}) (exists_turnsInto xs ys)

theorem levenshtein_le (h : TurnsInto n xs ys) : levenshtein xs ys ≤ n := Nat.sInf_le h

theorem levenshtein_comm (xs ys : List α) : levenshtein xs ys = levenshtein ys xs :=
  Nat.le_antisymm (levenshtein_le (turnsInto_levenshtein ys xs).symm)
    (levenshtein_le (turnsInto_levenshtein xs ys).symm)

@[simp] theorem levenshtein_nil_left (ys : List α) : levenshtein [] ys = ys.length := by
  refine Nat.le_antisymm (levenshtein_le (.of_nil ys)) ?_
  simpa using (turnsInto_levenshtein [] ys).length_le

@[simp] theorem levenshtein_nil_right (xs : List α) : levenshtein xs [] = xs.length := by
  rw [levenshtein_comm, levenshtein_nil_left]

/-- Lists at distance zero are the same. -/
theorem levenshtein_eq_zero_iff : levenshtein xs ys = 0 ↔ xs = ys := by
  constructor
  · intro h
    have hzero := turnsInto_levenshtein xs ys
    rw [h] at hzero
    obtain ⟨-, hys⟩ | ⟨m, e, us, hm, -⟩ := hzero.none_or_edit
    · exact hys
    · cases hm
  · rintro rfl
    exact Nat.le_zero.1 (levenshtein_le (.refl xs))

/-- The recurrence at the ends of the lists. -/
theorem levenshtein_concat_concat [DecidableEq α] (xs ys : List α) (x y : α) :
    levenshtein (xs ++ [x]) (ys ++ [y]) =
      min (min (levenshtein xs (ys ++ [y]) + 1) (levenshtein (xs ++ [x]) ys + 1))
        (levenshtein xs ys + if x = y then 0 else 1) := by
  apply Nat.le_antisymm
  · refine Nat.le_min.2 ⟨Nat.le_min.2 ⟨?_, ?_⟩, ?_⟩
    · exact levenshtein_le ((turnsInto_levenshtein xs (ys ++ [y])).delete_last x)
    · exact levenshtein_le ((turnsInto_levenshtein (xs ++ [x]) ys).insert_last y)
    · exact levenshtein_le ((turnsInto_levenshtein xs ys).match_last x y)
  · cases (turnsInto_levenshtein (xs ++ [x]) (ys ++ [y])).settlesLast with
    | deletes h hle =>
      have := levenshtein_le h
      omega
    | inserts h hle =>
      have := levenshtein_le h
      omega
    | turns h hle =>
      have := levenshtein_le h
      omega

end

/-! ## Rows -/

/-- The distances from `xs` to `ys` and to what `ys` becomes with the elements of `zs` one after the
other. -/
noncomputable def levenshteinRow (xs ys zs : List α) : List Nat :=
  zs.inits.map fun us => levenshtein xs (ys ++ us)

section
variable (y : α) (xs ys zs : List α)

theorem levenshteinRow_nil : levenshteinRow xs ys [] = [levenshtein xs ys] := by
  simp [levenshteinRow]

theorem levenshteinRow_cons :
    levenshteinRow xs ys (y :: zs) = levenshtein xs ys :: levenshteinRow xs (ys ++ [y]) zs := by
  simp [levenshteinRow]

/-- A row starts with the distance to the list alone. -/
theorem exists_levenshteinRow : ∃ row, levenshteinRow xs ys zs = levenshtein xs ys :: row := by
  cases zs with
  | nil => exact ⟨_, levenshteinRow_nil xs ys⟩
  | cons z zs => exact ⟨_, levenshteinRow_cons z xs ys zs⟩

/-- The row of the empty list holds lengths. -/
theorem levenshteinRow_empty : levenshteinRow [] [] zs = List.range (zs.length + 1) := by
  refine List.ext_getElem (by simp [levenshteinRow]) fun i hi _ => ?_
  simp only [levenshteinRow, List.length_map, List.length_inits] at hi
  simp only [levenshteinRow, List.getElem_map, List.getElem_inits, List.nil_append,
    levenshtein_nil_left, List.length_take, List.getElem_range]
  omega

/-- The last entry of a row is the distance to the whole list. -/
theorem getLastD_levenshteinRow : (levenshteinRow xs [] zs).getLastD 0 = levenshtein xs zs := by
  simp [levenshteinRow, List.getLastD_eq_getLast?, List.getLast?_eq_getElem?]

end

section
variable [DecidableEq α] (x : α) (xs ys zs : List α)

/-- From a column on, the next row holds the distances from the list with one more element. -/
theorem cons_extendRow :
    levenshtein (xs ++ [x]) ys ::
        extendRow x (levenshtein (xs ++ [x]) ys) zs (levenshteinRow xs ys zs) =
      levenshteinRow (xs ++ [x]) ys zs := by
  induction zs generalizing ys with
  | nil =>
    rw [levenshteinRow_nil, levenshteinRow_nil]
    rfl
  | cons z zs ih =>
    obtain ⟨row, hrow⟩ := exists_levenshteinRow xs (ys ++ [z]) zs
    rw [levenshteinRow_cons, levenshteinRow_cons, ← ih, hrow, extendRow,
      levenshtein_concat_concat]

theorem nextRow_eq :
    nextRow zs xs.length (levenshteinRow xs [] zs) x = levenshteinRow (xs ++ [x]) [] zs := by
  rw [← cons_extendRow, levenshtein_nil_right, List.length_append, List.length_singleton]
  rfl

/-- Row by row one comes to the distances from the whole list. -/
theorem lastRow_eq :
    lastRow zs xs.length (levenshteinRow xs [] zs) ys = levenshteinRow (xs ++ ys) [] zs := by
  induction ys generalizing xs with
  | nil => rw [lastRow, List.append_nil]
  | cons y ys ih =>
    have hrest := ih (xs ++ [y])
    rw [List.length_append, List.length_singleton, List.append_assoc] at hrest
    rw [lastRow, nextRow_eq, hrest]
    rfl

theorem lastEntry_eq_levenshtein : lastEntry xs ys = levenshtein xs ys := by
  unfold lastEntry
  split
  · rename_i hempty
    rw [List.isEmpty_iff.1 hempty, levenshtein_nil_right]
  · have hlast := lastRow_eq [] xs ys
    rw [List.length_nil, List.nil_append, levenshteinRow_empty] at hlast
    rw [hlast, getLastD_levenshteinRow]

theorem editDistance_eq_levenshtein : editDistance xs ys = levenshtein xs ys := by
  unfold editDistance
  split
  · rw [lastEntry_eq_levenshtein, levenshtein_comm]
  · exact lastEntry_eq_levenshtein xs ys

/-- The edit distance of two lists is the least number of insertions, deletions and substitutions of
single elements, made one after the other, that turn the one list into the other. -/
theorem editDistance_isLeast :
    IsLeast {n | ∃ es : List (Edit α), Edit.run? es xs = some ys ∧ es.length = n}
      (editDistance xs ys) := by
  rw [editDistance_eq_levenshtein]
  constructor
  · exact TurnsInto.iff_script.1 (turnsInto_levenshtein xs ys)
  · exact fun _ hn => levenshtein_le (TurnsInto.iff_script.2 hn)

end

example : editDistance "vairable".toList "variables".toList = 3 ∧
    Edit.run? [.delete 2, .insert 3 'i', .insert 8 's'] "vairable".toList =
      some "variables".toList := by
  decide +kernel

end SLFront.Text
