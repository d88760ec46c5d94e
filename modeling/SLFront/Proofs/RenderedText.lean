import Mathlib.Data.List.Basic
import SLFront.Tree.Render

/-!
# Lines and their text

The text of some lines shows the lines: the depth of a line is the number of spaces in front of it,
if what comes next is no space, and the line ends at its line feed, if there is no other in it
(`RenderedLine.eq_of_flatMap`). Lines that are all deeper by the same number are shown with a wider
margin, and otherwise the same (`RenderedLine.flatMap_deeper`).
-/
namespace SLFront

section
variable {α : Type} {p : α → Bool} {xs ys us vs : List α} {u v : α}

/-- Where a list stops satisfying a test is determined. -/
theorem eq_of_append_of_stop (hxs : ∀ x ∈ xs, p x) (hys : ∀ y ∈ ys, p y) (hu : p u = false)
    (hv : p v = false) (h : xs ++ u :: us = ys ++ v :: vs) : xs = ys ∧ u :: us = v :: vs := by
  have htake := congrArg (List.takeWhile p) h
  rw [List.takeWhile_append_of_pos hxs, List.takeWhile_append_of_pos hys,
    List.takeWhile_cons_of_neg (by simp [hu]), List.takeWhile_cons_of_neg (by simp [hv]),
    List.append_nil, List.append_nil] at htake
  subst htake
  exact ⟨rfl, List.append_cancel_left h⟩

/-- What stands in front of the first occurrence of something is determined. -/
theorem eq_of_append_cons [DecidableEq α] (hxs : u ∉ xs) (hys : u ∉ ys)
    (h : xs ++ u :: us = ys ++ u :: vs) : xs = ys ∧ us = vs := by
  have hne : ∀ {zs : List α}, u ∉ zs → ∀ z ∈ zs, decide (z ≠ u) :=
    fun hzs z hz => decide_eq_true (ne_of_mem_of_not_mem hz hzs)
  have hstop : decide (u ≠ u) = false := by simp
  obtain ⟨hfront, hrest⟩ := eq_of_append_of_stop (hne hxs) (hne hys) hstop hstop h
  exact ⟨hfront, (List.cons.inj hrest).2⟩

end

/-- The text can be told from the line that it stands on: it does not start with a space, and
contains no line feed. -/
def FitsLine (text : String) : Prop := text.toList.head?.any (· ≠ ' ') ∧ '\n' ∉ text.toList

instance (text : String) : Decidable (FitsLine text) := inferInstanceAs (Decidable (_ ∧ _))

theorem FitsLine.exists_cons {text : String} (h : FitsLine text) :
    ∃ c cs, text.toList = c :: cs ∧ c ≠ ' ' := by
  obtain ⟨hhead, -⟩ := h
  cases htext : text.toList with
  | nil =>
    rw [htext] at hhead
    cases hhead
  | cons c cs =>
    rw [htext] at hhead
    exact ⟨c, cs, rfl, of_decide_eq_true hhead⟩

namespace RenderedLine
variable {l l' : RenderedLine} {ls ls' : List RenderedLine}

/-- The line can be read back from its text. -/
structure IsPlain (l : RenderedLine) : Prop where
  depth : 0 ≤ l.depth
  text : FitsLine l.text

theorem toList_render (l : RenderedLine) :
    l.render.toList = List.replicate (2 * l.depth.toNat) ' ' ++ l.text.toList ++ ['\n'] := by
  simp [render, indent]

/-- What is at the front of a text that starts with a plain line is determined. -/
theorem IsPlain.append_inj {us vs : List Char} (hl : l.IsPlain) (hl' : l'.IsPlain)
    (h : List.replicate (2 * l.depth.toNat) ' ' ++ (l.text.toList ++ '\n' :: us) =
      List.replicate (2 * l'.depth.toNat) ' ' ++ (l'.text.toList ++ '\n' :: vs)) :
    l = l' ∧ us = vs := by
  obtain ⟨c, cs, htext, hc⟩ := hl.text.exists_cons
  obtain ⟨c', cs', htext', hc'⟩ := hl'.text.exists_cons
  have hspaces : ∀ n, ∀ x ∈ List.replicate n ' ', decide (x = ' ') := fun n x hx =>
    decide_eq_true (List.eq_of_mem_replicate hx)
  rw [htext, htext', List.cons_append, List.cons_append] at h
  obtain ⟨hdepth, h⟩ := eq_of_append_of_stop (hspaces _) (hspaces _) (decide_eq_false hc)
    (decide_eq_false hc') h
  rw [← List.cons_append, ← List.cons_append, ← htext, ← htext'] at h
  obtain ⟨htexts, hrest⟩ := eq_of_append_cons hl.text.2 hl'.text.2 h
  have hlength := congrArg List.length hdepth
  rw [List.length_replicate, List.length_replicate] at hlength
  have hdepths : l.depth = l'.depth := by
    have := hl.depth
    have := hl'.depth
    omega
  refine ⟨?_, hrest⟩
  obtain ⟨d, text⟩ := l
  obtain ⟨d', text'⟩ := l'
  rw [mk.injEq]
  exact ⟨hdepths, String.toList_inj.1 htexts⟩

/-- From the text of plain lines the lines can be read back. -/
theorem eq_of_flatMap (hls : ∀ l ∈ ls, l.IsPlain) (hls' : ∀ l ∈ ls', l.IsPlain)
    (h : ls.flatMap (·.render.toList) = ls'.flatMap (·.render.toList)) : ls = ls' := by
  induction ls generalizing ls' with
  | nil =>
    cases ls' with
    | nil => rfl
    | cons l' ls' => simp [toList_render] at h
  | cons l ls ih =>
    cases ls' with
    | nil => simp [toList_render] at h
    | cons l' ls' =>
      obtain ⟨hl, hrest⟩ := List.forall_mem_cons.1 hls
      obtain ⟨hl', hrest'⟩ := List.forall_mem_cons.1 hls'
      rw [List.flatMap_cons, List.flatMap_cons, toList_render, toList_render, List.append_assoc,
        List.append_assoc, List.append_assoc, List.append_assoc] at h
      obtain ⟨rfl, htail⟩ := hl.append_inj hl' h
      rw [ih hrest hrest' htail]

end RenderedLine

/-! ## Margins -/

/-- The line, deeper by some levels. -/
def RenderedLine.deeper (k : Int) (l : RenderedLine) : RenderedLine := ⟨l.depth + k, l.text⟩

@[simp] theorem RenderedLine.deeper_mk (d k : Int) (text : String) :
    deeper k ⟨d, text⟩ = ⟨d + k, text⟩ := rfl

/-- The text with a margin in front of every line. The flag tells whether a line starts. -/
def withMargin (margin : List Char) : Bool → List Char → List Char
  | _, [] => []
  | starts, c :: cs => (if starts then margin else []) ++ c :: withMargin margin (c = '\n') cs

theorem withMargin_append {margin cs : List Char} (hcs : '\n' ∉ cs) (starts : Bool)
    (rest : List Char) : withMargin margin starts (cs ++ '\n' :: rest) =
      (if starts then margin else []) ++ (cs ++ '\n' :: withMargin margin true rest) := by
  induction cs generalizing starts with
  | nil => simp [withMargin]
  | cons c cs ih =>
    obtain ⟨hc, hcs⟩ := not_or.1 (List.mem_cons.not.1 hcs)
    rw [List.cons_append, withMargin, decide_eq_false (Ne.symm hc), ih hcs false]
    rfl

/-- Lines that stand deeper have a wider margin, and else are the same. -/
theorem RenderedLine.flatMap_deeper (k : Nat) {ls : List RenderedLine} (hls : ∀ l ∈ ls, l.IsPlain) :
    (ls.map (deeper k)).flatMap (·.render.toList) =
      withMargin (List.replicate (2 * k) ' ') true (ls.flatMap (·.render.toList)) := by
  induction ls with
  | nil => rfl
  | cons l ls ih =>
    obtain ⟨hl, hls⟩ := List.forall_mem_cons.1 hls
    have hspaces : 2 * (l.depth + k).toNat = 2 * k + 2 * l.depth.toNat := by
      have := hl.depth
      omega
    have hflat : '\n' ∉ List.replicate (2 * l.depth.toNat) ' ' ++ l.text.toList := by
      rw [List.mem_append, List.mem_replicate, not_or]
      exact ⟨by simp, hl.text.2⟩
    rw [List.map_cons, List.flatMap_cons, List.flatMap_cons, ih hls, toList_render, toList_render,
      List.append_assoc, List.append_assoc _ ['\n'], List.singleton_append, List.singleton_append,
      withMargin_append hflat]
    rw [deeper, hspaces, List.replicate_add, if_pos rfl, List.append_assoc, List.append_assoc,
      List.append_assoc]

end SLFront
