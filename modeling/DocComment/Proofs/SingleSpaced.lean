import DocComment.Proofs.Trimmed
import DocComment.Proofs.Visible
import Mathlib.Data.List.Chain

/-!
Running text with single spaces, and where its fragments fail to give it.

* **Single spaces.** A fragment that is collapsed has no two white-space characters side by side
  (`Spacing.isSingleSpaced_layOut`).
* **Seams.** After a line has begun, a fragment adds its layout, with a blank in front unless it
  opens with a symbol; a blank fragment adds just a blank (`Spacing.continued`).
* **Wide gaps.** So running text is single-spaced unless its fragments leave a wide gap: between
  visible ones there is a blank one, and the next is blank too or opens with a word
  (`Spacing.isSingleSpaced_joined_iff`).
-/

namespace DocComment

/-! ### Single spaces -/

namespace Text

/-- Whether no two neighbouring characters of a text are white space. -/
def IsSingleSpaced (t : Text) : Prop :=
  t.IsChain fun a b => ¬ (isSpace a = true ∧ isSpace b = true)

/-- A visible character separates what stands on its two sides. -/
lemma isSingleSpaced_append {t u : Text} (ht : IsSingleSpaced t) (hu : IsSingleSpaced u)
    (h : ∀ c ∈ t.getLast?, isSpace c = false) : IsSingleSpaced (t ++ u) :=
  List.IsChain.append ht hu fun a ha b _ hab => by
    rw [h a ha] at hab
    exact absurd hab.1 Bool.false_ne_true

end Text

namespace Spacing

open Text

lemma isSingleSpaced_gapText (gap : Gap) : IsSingleSpaced gap.text := by
  cases gap with
  | empty => exact .nil
  | one c => exact .singleton c
  | many => exact .singleton ' '

lemma isSingleSpaced_collapseAfter (gap : Gap) (t : Text) :
    IsSingleSpaced (collapseAfter gap t) := by
  induction t generalizing gap with
  | nil => exact isSingleSpaced_gapText gap
  | cons c t ih =>
      rw [collapseAfter]
      cases hc : isSpace c with
      | true =>
          rw [if_pos rfl]
          exact ih (gap.push c)
      | false =>
          rw [if_neg Bool.false_ne_true]
          have hcons : IsSingleSpaced (c :: collapseAfter .empty t) :=
            isSingleSpaced_append (t := [c]) (.singleton c) (ih .empty) (by simpa using hc)
          refine List.IsChain.append (isSingleSpaced_gapText gap) hcons fun a _ b hb hab => ?_
          obtain rfl : c = b := Option.some.inj hb
          rw [hc] at hab
          exact absurd hab.2 Bool.false_ne_true

/-- **Collapsing** leaves single spaces. -/
lemma isSingleSpaced_layOut (t : Text) : IsSingleSpaced (collapse.layOut t) :=
  List.IsChain.infix (isSingleSpaced_collapseAfter .empty t) (trim_isInfix _)

/-! ### Fragments -/

/-- What a fragment of prose adds to a line that has begun. -/
def continued (fragment : Text) : Text :=
  (if opensWithSymbol (trimStart fragment) then [] else [' ']) ++
    collapse.layOut (trimStart fragment)

lemma append_eq_continued {out : Text} (h : inLine out = true) (fragment : Text) :
    collapse.append out fragment = out ++ continued fragment := by
  rw [append, separator, continued, h, Bool.true_and, List.append_assoc]
  cases opensWithSymbol (trimStart fragment) <;> rfl

/-- A blank fragment is laid out as nothing. -/
lemma layOut_of_isBlank {fragment : Text} (h : isBlank fragment = true) :
    collapse.layOut (trimStart fragment) = [] := by
  rw [trimStart_eq_nil_iff.mpr h]
  rfl

lemma layOut_ne_nil {fragment : Text} (h : isBlank fragment = false) :
    collapse.layOut (trimStart fragment) ≠ [] := by
  intro hnil
  have hvisible := visible_layOut collapse (trimStart fragment)
  rw [hnil, visible_trimStart, visible_nil, eq_comm, visible_eq_nil_iff, h] at hvisible
  exact Bool.false_ne_true hvisible

lemma opensWithSymbol_of_isBlank {fragment : Text} (h : isBlank fragment = true) :
    opensWithSymbol (trimStart fragment) = false := by
  rw [trimStart_eq_nil_iff.mpr h]
  rfl

/-- A blank fragment adds a blank. -/
lemma continued_of_isBlank {fragment : Text} (h : isBlank fragment = true) :
    continued fragment = [' '] := by
  rw [continued, opensWithSymbol_of_isBlank h, layOut_of_isBlank h]
  rfl

lemma continued_ne_nil (fragment : Text) : continued fragment ≠ [] := by
  cases h : isBlank fragment with
  | true => simp [continued_of_isBlank h]
  | false => simp [continued, layOut_ne_nil h]

/-- What a fragment adds begins with white space unless the fragment opens with a symbol. -/
lemma isSpace_head_continued {fragment : Text} {c : Char} (hc : c ∈ (continued fragment).head?) :
    isSpace c = !opensWithSymbol (trimStart fragment) := by
  rw [continued] at hc
  cases h : opensWithSymbol (trimStart fragment) with
  | true =>
      rw [h, if_pos rfl, List.nil_append] at hc
      exact (isTrimmed_trim _).head c hc
  | false =>
      rw [h, if_neg Bool.false_ne_true] at hc
      obtain rfl : ' ' = c := Option.some.inj hc
      rfl

/-- What a fragment adds ends with white space just if the fragment is blank. -/
lemma isSpace_last_continued {fragment : Text} {c : Char}
    (hc : c ∈ (continued fragment).getLast?) : isSpace c = isBlank fragment := by
  cases h : isBlank fragment with
  | true =>
      rw [continued_of_isBlank h] at hc
      obtain rfl : ' ' = c := Option.some.inj hc
      rfl
  | false =>
      rw [continued, List.getLast?_append_of_ne_nil _ (layOut_ne_nil h)] at hc
      exact (isTrimmed_trim _).last c hc

lemma isSingleSpaced_continued (fragment : Text) : IsSingleSpaced (continued fragment) := by
  rw [continued]
  split
  · exact isSingleSpaced_layOut _
  · refine List.IsChain.append (.singleton ' ') (isSingleSpaced_layOut _) fun a _ b hb hab => ?_
    rw [(isTrimmed_trim _).head b hb] at hab
    exact Bool.false_ne_true hab.2

/-- Whether the seam between two fragments in a line is at most a single space. -/
def MeetClosely (f g : Text) : Prop :=
  isBlank f = true → opensWithSymbol (trimStart g) = true

/-- Fragments in a line meet closely if no seam between two of them is wide. -/
lemma meetClosely_iff {f g : Text} :
    MeetClosely f g ↔ ∀ a ∈ (continued f).getLast?, ∀ b ∈ (continued g).head?,
      ¬ (isSpace a = true ∧ isSpace b = true) := by
  constructor
  · rintro h a ha b hb ⟨hspace, hspace'⟩
    rw [isSpace_last_continued ha] at hspace
    rw [isSpace_head_continued hb, h hspace] at hspace'
    exact absurd hspace' Bool.false_ne_true
  · intro h hf
    have ha := List.getLast?_eq_some_getLast (continued_ne_nil f)
    have hb := List.head?_eq_some_head (continued_ne_nil g)
    have hclose := h _ ha _ hb
    rw [isSpace_last_continued ha, isSpace_head_continued hb] at hclose
    simpa [hf] using hclose

/-- Running text after a line has begun is single-spaced if its fragments meet closely. -/
lemma isSingleSpaced_flatMap_continued_iff (fs : List Text) :
    IsSingleSpaced (fs.flatMap continued) ↔ fs.IsChain MeetClosely := by
  have hne : [] ∉ fs.map continued := by
    intro hmem
    obtain ⟨f, -, hf⟩ := List.mem_map.mp hmem
    exact continued_ne_nil f hf
  have hsingle : ∀ t ∈ fs.map continued, IsSingleSpaced t := by
    intro t ht
    obtain ⟨f, -, rfl⟩ := List.mem_map.mp ht
    exact isSingleSpaced_continued f
  rw [List.flatMap_def, IsSingleSpaced, List.isChain_flatten hne, List.isChain_map]
  exact (and_iff_right hsingle).trans (List.IsChain.iff fun f g => meetClosely_iff.symm)

/-! ### Running text -/

/-- A line has begun after a text that ends with anything but a line feed. -/
lemma inLine_append {u : Text} (hne : u ≠ []) (h : ∀ c ∈ u.getLast?, c ≠ '\n') (out : Text) :
    inLine (out ++ u) = true := by
  have hlast := List.getLast?_eq_some_getLast hne
  rw [inLine, List.getLast?_append_of_ne_nil _ hne, hlast]
  exact bne_iff_ne.mpr (h _ hlast)

/-- A trimmed text that is not empty leaves a line that has begun. -/
lemma inLine_of_isTrimmed {t : Text} (h : IsTrimmed t) (hne : t ≠ []) : inLine t = true :=
  inLine_append hne h.ne_lineFeed []

lemma inLine_append_continued (out fragment : Text) :
    inLine (out ++ continued fragment) = true := by
  refine inLine_append (continued_ne_nil fragment) (fun c hc => ?_) out
  cases h : isBlank fragment with
  | true =>
      rw [continued_of_isBlank h] at hc
      obtain rfl : ' ' = c := Option.some.inj hc
      decide
  | false =>
      rintro rfl
      exact absurd ((isSpace_last_continued hc).trans h) (by decide)

lemma foldl_append_of_inLine {out : Text} (h : inLine out = true) (fs : List Text) :
    fs.foldl collapse.append out = out ++ fs.flatMap continued := by
  induction fs generalizing out with
  | nil => simp
  | cons f fs ih =>
      rw [List.foldl_cons, append_eq_continued h, ih (inLine_append_continued out f),
        List.flatMap_cons, List.append_assoc]

/-- The text of fragments that are joined one after another. -/
def joined (fs : List Text) : Text :=
  trim (fs.foldl collapse.append [])

/-- Blank fragments in front leave no trace. -/
lemma foldl_append_of_isBlank {fs : List Text} (h : ∀ f ∈ fs, isBlank f = true) :
    fs.foldl collapse.append [] = [] := by
  induction fs with
  | nil => rfl
  | cons f fs ih =>
      obtain ⟨hf, hfs⟩ := List.forall_mem_cons.mp h
      rw [List.foldl_cons, append_nil, layOut_of_isBlank hf, ih hfs]

lemma isBlank_flatMap_continued {fs : List Text} (h : ∀ f ∈ fs, isBlank f = true) :
    isBlank (fs.flatMap continued) = true := by
  refine isBlank_iff.mpr fun c hc => ?_
  obtain ⟨f, hf, hcf⟩ := List.mem_flatMap.mp hc
  rw [continued_of_isBlank (h f hf)] at hcf
  obtain rfl := List.mem_singleton.mp hcf
  rfl

/-! ### Wide gaps -/

/-- Whether fragments leave a wide gap: after a visible fragment and before another there is a
blank one, and the next is blank too or opens with a word. -/
def LeaveWideGap (fs : List Text) : Prop :=
  ∃ before blank next after, fs = before ++ blank :: next :: after ∧
    (∃ f ∈ before, isBlank f = false) ∧ ¬ MeetClosely blank next ∧
    ∃ f ∈ next :: after, isBlank f = false

/-- Fragments that do not meet closely: the first is blank. -/
lemma isBlank_of_not_meetClosely {f g : Text} (h : ¬ MeetClosely f g) : isBlank f = true := by
  by_contra hvisible
  exact h fun hblank => absurd hblank hvisible

/-! ### Between the first and the last visible fragment -/

/-- Fragments cut into blank ones, then others that begin and end with a visible one, and blank
ones. -/
structure IsCore (fs front : List Text) (first : Text) (rest back : List Text) : Prop where
  eq : fs = front ++ (first :: rest ++ back)
  front_blank : ∀ f ∈ front, isBlank f = true
  first_visible : isBlank first = false
  last_visible : ∀ f ∈ (first :: rest).getLast?, isBlank f = false
  back_blank : ∀ f ∈ back, isBlank f = true

/-- Fragments that are not all blank have such a cut. -/
lemma exists_isCore {fs : List Text} (h : ¬ ∀ f ∈ fs, isBlank f = true) :
    ∃ front first rest back, IsCore fs front first rest back := by
  let tail := fs.dropWhile isBlank
  have htail : ∀ f ∈ tail.head?, isBlank f = false := by
    intro f hf
    have hnot := List.head?_dropWhile_not isBlank fs
    rw [Option.mem_def.mp hf] at hnot
    simpa using hnot
  have hcore : tail.rdropWhile isBlank ≠ [] := by
    rw [Ne, List.rdropWhile_eq_nil_iff]
    intro hall
    obtain ⟨f, rest, hf⟩ := List.exists_cons_of_ne_nil (mt List.dropWhile_eq_nil_iff.mp h)
    have hvisible := htail f (by rw [show tail = f :: rest from hf]; rfl)
    rw [hall f (by rw [show tail = f :: rest from hf]; exact .head _)] at hvisible
    cases hvisible
  obtain ⟨first, rest, hrest⟩ := List.exists_cons_of_ne_nil hcore
  have hsplit : first :: rest ++ tail.rtakeWhile isBlank = tail := by
    rw [← hrest]
    exact List.rdropWhile_append_rtakeWhile
  refine ⟨fs.takeWhile isBlank, first, rest, tail.rtakeWhile isBlank, ?_, ?_, ?_, ?_, ?_⟩
  · rw [hsplit]
    exact List.takeWhile_append_dropWhile.symm
  · exact fun f hf => List.mem_takeWhile_imp hf
  · exact htail first (by rw [← hsplit]; rfl)
  · intro f hf
    rw [← hrest, List.getLast?_eq_some_getLast hcore] at hf
    obtain rfl := Option.some.inj hf
    simpa using List.rdropWhile_last_not isBlank tail hcore
  · exact fun f hf => List.mem_rtakeWhile_imp hf

section Core

variable {fs front rest back : List Text} {first : Text} (h : IsCore fs front first rest back)

include h

lemma IsCore.isTrimmed :
    IsTrimmed (collapse.layOut (trimStart first) ++ rest.flatMap continued) := by
  have hfirst : IsTrimmed (collapse.layOut (trimStart first)) := isTrimmed_trim _
  constructor
  · rw [List.head?_append_of_ne_nil _ (layOut_ne_nil h.first_visible)]
    exact hfirst.head
  · rcases rest.eq_nil_or_concat with rfl | ⟨init, f, rfl⟩
    · simpa using hfirst.last
    · have hf : isBlank f = false := h.last_visible f (by simp [List.getLast?_cons])
      intro c hc
      rw [List.concat_eq_append, List.flatMap_append, List.flatMap_singleton,
        ← List.append_assoc, List.getLast?_append_of_ne_nil _ (continued_ne_nil f)] at hc
      rw [isSpace_last_continued hc, hf]

/-- The text of fragments that are not all blank: the first visible one, and what the others up to
the last visible one add. -/
lemma IsCore.joined_eq :
    joined fs = collapse.layOut (trimStart first) ++ rest.flatMap continued := by
  have hfirst : IsTrimmed (collapse.layOut (trimStart first)) := isTrimmed_trim _
  have hbegun : inLine (collapse.layOut (trimStart first)) = true :=
    inLine_of_isTrimmed hfirst (layOut_ne_nil h.first_visible)
  rw [joined, h.eq, List.foldl_append, foldl_append_of_isBlank h.front_blank, List.cons_append,
    List.foldl_cons, append_nil, foldl_append_of_inLine hbegun, List.flatMap_append,
    ← List.append_assoc]
  have hblank := isBlank_flatMap_continued h.back_blank
  exact (trim_append_append (u := []) rfl hblank _).trans h.isTrimmed.trim_eq

/-- It is single-spaced if these fragments meet closely. -/
lemma IsCore.isSingleSpaced_joined_iff :
    IsSingleSpaced (joined fs) ↔ (first :: rest).IsChain MeetClosely := by
  have hfirst : IsTrimmed (collapse.layOut (trimStart first)) := isTrimmed_trim _
  have hvisible : ∀ g, MeetClosely first g := fun g hblank => by
    rw [h.first_visible] at hblank
    cases hblank
  rw [h.joined_eq, List.isChain_cons, ← isSingleSpaced_flatMap_continued_iff]
  constructor
  · exact fun hsingle => ⟨fun g _ => hvisible g, List.IsChain.right_of_append hsingle⟩
  · exact fun hrest => isSingleSpaced_append (isSingleSpaced_layOut _) hrest.2 hfirst.last

/-- The visible fragments on its two sides keep a wide gap away from the blank ends. -/
lemma IsCore.exists_of_leaveWideGap (hgap : LeaveWideGap fs) :
    ∃ before blank next after, first :: rest = before ++ blank :: next :: after ∧
      ¬ MeetClosely blank next := by
  obtain ⟨before, blank, next, after, heq, ⟨f, hf, hfvisible⟩, hwide, g, hg, hgvisible⟩ := hgap
  rw [h.eq] at heq
  obtain ⟨c, -, hmiddle⟩ | ⟨c, rfl, -⟩ := List.append_eq_append_iff.mp heq
  · have hback : ¬ ∃ d, back = d ++ next :: after := by
      rintro ⟨d, rfl⟩
      rw [h.back_blank g (List.mem_append_right _ hg)] at hgvisible
      cases hgvisible
    have hsplit : first :: rest ++ back = (c ++ [blank]) ++ next :: after := by simp [hmiddle]
    obtain ⟨d, -, hd⟩ | ⟨d, hcore, hd⟩ := List.append_eq_append_iff.mp hsplit
    · exact absurd ⟨d, hd⟩ hback
    · cases d with
      | nil => exact absurd ⟨[], hd.symm⟩ hback
      | cons d ds =>
          obtain ⟨rfl, -⟩ := List.cons.inj hd
          exact ⟨c, blank, next, ds, by simp [hcore], hwide⟩
  · rw [h.front_blank f (List.mem_append_left _ hf)] at hfvisible
    cases hfvisible

lemma IsCore.leaveWideGap {before after : List Text} {blank next : Text}
    (heq : first :: rest = before ++ blank :: next :: after) (hwide : ¬ MeetClosely blank next) :
    LeaveWideGap fs := by
  have hfirst : first ∈ before := by
    cases before with
    | nil =>
        obtain ⟨rfl, -⟩ := List.cons.inj heq
        have hvisible := h.first_visible
        rw [isBlank_of_not_meetClosely hwide] at hvisible
        cases hvisible
    | cons d ds =>
        obtain ⟨rfl, -⟩ := List.cons.inj heq
        exact .head _
  have hne := List.cons_ne_nil next after
  have hlast : (first :: rest).getLast? = some ((next :: after).getLast hne) := by
    rw [heq, List.getLast?_append_cons, List.getLast?_cons_cons, List.getLast?_eq_some_getLast hne]
  refine ⟨front ++ before, blank, next, after ++ back, ?_,
    ⟨first, List.mem_append_right _ hfirst, h.first_visible⟩, hwide,
    (next :: after).getLast hne, ?_, h.last_visible _ hlast⟩
  · rw [h.eq, heq]
    simp only [List.append_assoc, List.cons_append]
  · exact List.mem_append_left back (List.getLast_mem hne)

lemma IsCore.leaveWideGap_iff : LeaveWideGap fs ↔ ¬ (first :: rest).IsChain MeetClosely := by
  rw [List.isChain_iff_forall_rel_of_append_cons_cons]
  push Not
  constructor
  · intro hgap
    obtain ⟨before, blank, next, after, heq, hwide⟩ := h.exists_of_leaveWideGap hgap
    exact ⟨blank, next, before, after, heq, hwide⟩
  · rintro ⟨blank, next, before, after, heq, hwide⟩
    exact h.leaveWideGap heq hwide

end Core

/-- **Running text** is single-spaced unless its fragments leave a wide gap. -/
theorem isSingleSpaced_joined_iff (fs : List Text) :
    IsSingleSpaced (joined fs) ↔ ¬ LeaveWideGap fs := by
  by_cases hblank : ∀ f ∈ fs, isBlank f = true
  · rw [joined, foldl_append_of_isBlank hblank]
    refine iff_of_true .nil ?_
    rintro ⟨before, blank, next, after, rfl, ⟨f, hf, hvisible⟩, -⟩
    rw [hblank f (List.mem_append_left _ hf)] at hvisible
    cases hvisible
  · obtain ⟨front, first, rest, back, hcore⟩ := exists_isCore hblank
    rw [hcore.isSingleSpaced_joined_iff, hcore.leaveWideGap_iff, not_not]

end Spacing

end DocComment
