import DocComment.Proofs.Body.ItemLine
import DocComment.Proofs.Numeral

/-!
The numbers of the items of a list.

* **The first number** is the integer in the tag, if there is one and it is in range, and otherwise
  one (`StartsWith`).
* **Consecutive numbers.** Each item has the number after that of the item before it, so that the
  lines of a list are told by its items, its kind and its first number
  (`text_writeItems_numbered`). All numbers are 64-bit integers, unless there are more items than
  any list can have.
-/

namespace DocComment

open Xml Text

namespace Body

/-! ### The first number -/

/-- Whether the tag of a list says that its first item has a given number. -/
def SaysStart (tag : Tag) (n : Int) : Prop :=
  ∃ t, tag.attributes.get? "start".toList = some t ∧ IsInteger (trim t) n ∧
    startRange.1 ≤ n ∧ n ≤ startRange.2

/-- The number that a list starts with: what its tag says, and one if it says nothing. -/
inductive StartsWith (tag : Tag) : Int → Prop where
  | said {n : Int} (h : SaysStart tag n) : StartsWith tag n
  | unsaid (h : ∀ n, ¬ SaysStart tag n) : StartsWith tag 1

lemma saysStart_iff {tag : Tag} {n : Int} :
    SaysStart tag n ↔
      ((tag.attributes.get? "start".toList).bind fun t => readSigned (trim t)) = some n ∧
        startRange.1 ≤ n ∧ n ≤ startRange.2 := by
  simp only [SaysStart, Option.bind_eq_some_iff, readSigned_eq_some_iff]
  constructor
  · rintro ⟨t, ht, hn, hrange⟩
    exact ⟨⟨t, ht, hn⟩, hrange⟩
  · rintro ⟨⟨t, ht, hn⟩, hrange⟩
    exact ⟨t, ht, hn, hrange⟩

lemma startsWith_firstNumber (tag : Tag) : StartsWith tag (firstNumber tag) := by
  cases hsaid : (tag.attributes.get? "start".toList).bind fun t => readSigned (trim t) with
  | none =>
      have hone : firstNumber tag = 1 := by rw [firstNumber, hsaid]
      rw [hone]
      refine .unsaid fun n hn => ?_
      rw [saysStart_iff, hsaid] at hn
      cases hn.1
  | some n =>
      have hfirst : firstNumber tag = if startRange.1 ≤ n ∧ n ≤ startRange.2 then n else 1 := by
        rw [firstNumber, hsaid]
      by_cases hrange : startRange.1 ≤ n ∧ n ≤ startRange.2
      · rw [hfirst, if_pos hrange]
        exact .said (saysStart_iff.mpr ⟨hsaid, hrange⟩)
      · rw [hfirst, if_neg hrange]
        refine .unsaid fun m hm => ?_
        rw [saysStart_iff, hsaid] at hm
        exact hrange (Option.some.inj hm.1 ▸ hm.2)

/-- Every first number is in range. -/
lemma StartsWith.mem_startRange {tag : Tag} {n : Int} (h : StartsWith tag n) :
    startRange.1 ≤ n ∧ n ≤ startRange.2 := by
  cases h with
  | said hsaid =>
      obtain ⟨t, -, -, hrange⟩ := hsaid
      exact hrange
  | unsaid _ => decide

/-! ### Consecutive numbers -/

/-- The least and the greatest number that an item can be given. -/
def numberRange : Int × Int := (-0x8000000000000000, 0x7FFFFFFFFFFFFFFF)

/-- Counting on from a first number stays in range for as many items as there may be. -/
lemma mem_numberRange {first : Int} {count i : Nat}
    (hfirst : startRange.1 ≤ first ∧ first ≤ startRange.2) (hcount : count < 0x7FFFFFFF80000000)
    (hi : i ≤ count) : numberRange.1 ≤ first + i ∧ first + i ≤ numberRange.2 := by
  simp only [startRange] at hfirst
  simp only [numberRange]
  omega

/-- Only the items of numbered lists show their numbers. -/
lemma itemLine_of_ne_numbered {kind : ListKind} (h : kind ≠ .numbered) (m n : Int)
    (item : Element) : itemLine kind m item = itemLine kind n item := by
  cases kind with
  | bullet => rfl
  | numbered => exact absurd rfl h
  | definition => rfl

/-- An item of a numbered list begins with its number. -/
lemma isPrefix_itemLine_numbered (number : Int) (item : Element) :
    signedDecimal number ++ ". ".toList <+: itemLine .numbered number item :=
  List.prefix_append _ _

/-- **Items are numbered one after another**, each on its own line. A list adds to any page a line
for each child named `item` and for nothing else, told by this item, the kind of the list and, in a
numbered list, the item's number, with which the line begins then. The first number is the one that
the list starts with, each further one is the next, and none leaves the range of numbers. -/
theorem text_writeItems_numbered (list : Element)
    (hcount : (list.childrenNamed "item".toList).length < 0x7FFFFFFF80000000) :
    StartsWith list.tag (firstNumber list.tag) ∧
      (∀ p, (writeItems (ListKind.ofTag list.tag) (firstNumber list.tag) p list.content).text =
        p.text ++ ((list.childrenNamed "item".toList).mapIdx fun i item =>
          itemLine (ListKind.ofTag list.tag) (firstNumber list.tag + i) item).flatMap fun line =>
            line ++ ['\n']) ∧
      (ListKind.ofTag list.tag ≠ .numbered → ∀ m n item,
        itemLine (ListKind.ofTag list.tag) m item = itemLine (ListKind.ofTag list.tag) n item) ∧
      (∀ n item, signedDecimal n ++ ". ".toList <+: itemLine .numbered n item) ∧
      ∀ i ≤ (list.childrenNamed "item".toList).length,
        numberRange.1 ≤ firstNumber list.tag + i ∧ firstNumber list.tag + i ≤ numberRange.2 := by
  have hstart := startsWith_firstNumber list.tag
  refine ⟨hstart, ?_, itemLine_of_ne_numbered, isPrefix_itemLine_numbered, ?_⟩
  · exact fun p => text_writeItems (ListKind.ofTag list.tag) (firstNumber list.tag) p list
  · exact fun i hi => mem_numberRange hstart.mem_startRange hcount hi

/-- A list that starts below zero, with a head and two items. -/
def startedList : Element where
  tag :=
    { name := "list".toList,
      attributes := .ofList [("type".toList, "number".toList), ("start".toList, " -01 ".toList)] }
  content :=
    [.element { name := "listheader".toList } [.text ['h']],
      .element { name := "item".toList } [.element { name := "term".toList } [.text ['a']]],
      .text ['t'],
      .element { name := "item".toList } [.text " b\n".toList]]

theorem text_writeItems_startedList :
    (startedList.childrenNamed "item".toList).length < 0x7FFFFFFF80000000 ∧
      StartsWith startedList.tag (-1) ∧
      (writeItems (ListKind.ofTag startedList.tag) (firstNumber startedList.tag)
        { text := "Steps\n".toList } startedList.content).text =
          "Steps\n-1. a - \n0. b\n".toList := by
  have hcount : (startedList.childrenNamed "item".toList).length < 0x7FFFFFFF80000000 := by decide
  obtain ⟨hstart, htext, -⟩ := text_writeItems_numbered startedList hcount
  refine ⟨hcount, ?_, ?_⟩
  · rwa [show firstNumber startedList.tag = -1 by decide +kernel] at hstart
  · rw [htext]
    decide +kernel

end Body

end DocComment
