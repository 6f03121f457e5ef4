import DocComment.Proofs.Xml.OpenNames
import DocComment.Proofs.Xml.TagSource

/-!
Which documents are accepted, and what is wrong with the others, told from their tokens alone.

* **Balanced tokens.** `IsContent` and `IsElement` say which tokens are a content and which are
  one element; a document should be one element with nothing else around it (`IsSingleRooted`).
* **Violations.** At a place, which is the names of the open elements and whether a root has
  begun, a token may be out of order (`Place.Violates`), and so may be the end of the document
  (`Place.ViolatesAtEnd`). `FirstViolation` reads from left to right.
* **No other errors.** As long as no token is faulty by itself (`IsFaultless`), the place goes
  along with the progress of the reading (`place_of_step`), each token is taken or violates
  something (`step_of_violates`, `exists_step`), and the reading ends with the first violation
  (`error_iff_firstViolation`).
* **Balance.** What is left of an accepted document closes the elements that are open
  (`closes_of_steps`), and a balanced content is read to its end (`readsThrough_of_isContent`).
-/

namespace DocComment.Xml

/-! ### Balanced tokens -/

namespace Token

/-- Whether a token is a tag that begins an element. -/
def isTag : Token → Bool
  | .startTag _ => true
  | .emptyTag _ => true
  | _ => false

/-- Whether a token is neither a tag nor an end tag. -/
def isLeaf : Token → Bool
  | .endTag _ => false
  | token => !token.isTag

end Token

/-- **The tokens of a content**: elements, each with its own content between its tags, and
whatever is no tag. -/
inductive IsContent : List Token → Prop
  | nil : IsContent []
  | leaf {token : Token} {tokens : List Token} (htoken : token.isLeaf = true)
      (h : IsContent tokens) : IsContent (token :: tokens)
  | empty {tokens : List Token} (source : Text) (h : IsContent tokens) :
      IsContent (.emptyTag source :: tokens)
  | paired {content tokens : List Token} (source : Text) (hcontent : IsContent content)
      (h : IsContent tokens) :
      IsContent (.startTag source :: (content ++ .endTag (Tag.nameIn source) :: tokens))

/-- **The tokens of one element.** -/
inductive IsElement : List Token → Prop
  | empty (source : Text) : IsElement [.emptyTag source]
  | paired {content : List Token} (source : Text) (h : IsContent content) :
      IsElement (.startTag source :: (content ++ [.endTag (Tag.nameIn source)]))

/-- Whether tokens are one element with nothing but white space and silent tokens around it. -/
def IsSingleRooted (tokens : List Token) : Prop :=
  ∃ front element back, tokens = front ++ (element ++ back) ∧ IsElement element ∧
    (∀ token ∈ front, token.isIgnored = true) ∧ ∀ token ∈ back, token.isIgnored = true

/-! ### Violations -/

/-- A place in a document: the names of the elements that are open there, from the inside out,
and whether an element has begun outside all others. -/
structure Place where
  names : List Text := []
  started : Bool := false

namespace Place

/-- The place after a token. -/
def next (p : Place) (token : Token) : Place where
  names := token.namesAfter p.names
  started := p.started || (p.names.isEmpty && token.isTag)

/-- **The tokens that are out of order** at a place: outside all elements text that is not white
space, a section of character data, a reference, and the tag of a second root. -/
inductive Violates (p : Place) : Token → Error → Prop
  | text {t : Text} (h : p.names = []) (ht : Text.isBlank t = false) :
      Violates p (.text t) .textOutsideRoot
  | cdata (t : Text) (h : p.names = []) : Violates p (.cdata t) .textOutsideRoot
  | reference (name : Text) (h : p.names = []) : Violates p (.reference name) .textOutsideRoot
  | startTag (source : Text) (h : p.names = []) (hstarted : p.started = true) :
      Violates p (.startTag source) (.multipleRoots (Tag.nameIn source))
  | emptyTag (source : Text) (h : p.names = []) (hstarted : p.started = true) :
      Violates p (.emptyTag source) (.multipleRoots (Tag.nameIn source))

/-- **What is missing at the end of a document**: the end tag of the innermost open element, or
the root. -/
inductive ViolatesAtEnd (p : Place) : Error → Prop
  | unclosed {name : Text} {names : List Text} (h : p.names = name :: names) :
      ViolatesAtEnd p (.unclosedElement name)
  | missing (h : p.names = []) (hstarted : p.started = false) : ViolatesAtEnd p .missingRoot

end Place

/-- **The first violation** in the tokens from a place on, read from left to right. -/
inductive FirstViolation : Place → List Token → Error → Prop
  | here {p : Place} {token : Token} {tokens : List Token} {e : Error}
      (h : p.Violates token e) : FirstViolation p (token :: tokens) e
  | later {p : Place} {token : Token} {tokens : List Token} {e : Error}
      (htoken : ∀ e, ¬ p.Violates token e) (h : FirstViolation (p.next token) tokens e) :
      FirstViolation p (token :: tokens) e
  | atEnd {p : Place} {e : Error} (h : p.ViolatesAtEnd e) : FirstViolation p [] e

/-! ### Documents without faults of their own -/

/-- Whether a token can be read by itself: a tag has to have well-formed attributes, and a
reference inside an element has to stand for a character. -/
def Token.IsReadable (names : List Text) : Token → Prop
  | .startTag source => ∃ tag, Tag.read false source = .ok tag
  | .emptyTag source => ∃ tag, Tag.read true source = .ok tag
  | .reference name => names ≠ [] → ∃ c, Reference.ofContent name = .ok c
  | _ => True

/-- Whether something holds of each token, given the names of the elements open before it. -/
def Along (P : List Text → Token → Prop) : List Text → List Token → Prop
  | _, [] => True
  | names, token :: tokens => P names token ∧ Along P (token.namesAfter names) tokens

/-- A document in which nothing is faulty but perhaps the order of its tokens: it can be cut up,
its end tags match, its attributes are well-formed, and the references in its elements stand for
characters. -/
structure IsFaultless (t : Text) : Prop where
  cut : (tokenize t).fault = none
  readable : Along (fun names token => token.IsReadable names) [] (tokenize t).tokens

/-! ### Tokens one after another -/

lemma Along.of_append {P : List Text → Token → Prop} {names : List Text} {xs ys : List Token}
    (h : Along P names (xs ++ ys)) :
    Along P names xs ∧ Along P (xs.foldl Token.namesAfter names) ys := by
  induction xs generalizing names with
  | nil => exact ⟨trivial, h⟩
  | cons token xs ih => exact ⟨⟨h.1, (ih h.2).1⟩, (ih h.2).2⟩

/-- If the check of the end tags finds nothing, all of them match. -/
lemma along_of_checkEnds {names : List Text} {fault : Option Error} {tokens : List Token}
    (h : (checkEnds names fault tokens).fault = none) :
    fault = none ∧ (checkEnds names fault tokens).tokens = tokens ∧
      Along (fun names token => token.endFault? names = none) names tokens := by
  induction tokens generalizing names with
  | nil => exact ⟨h, rfl, trivial⟩
  | cons token tokens ih =>
      rw [checkEnds] at h ⊢
      cases hfault : token.endFault? names with
      | some e =>
          rw [hfault] at h
          cases h
      | none =>
          rw [hfault] at h
          obtain ⟨hnone, htokens, halong⟩ := ih h
          exact ⟨hnone, congrArg (token :: ·) htokens, hfault, halong⟩

namespace Progress

lemma names_of_steps {p q : Progress} {tokens : List Token} (h : p.steps tokens = .ok q) :
    q.names = tokens.foldl Token.namesAfter p.names := by
  induction tokens generalizing p with
  | nil => rw [Except.ok.inj h]; rfl
  | cons token tokens ih =>
      obtain ⟨next, hstep, hrest⟩ := exists_of_steps_cons h
      rw [List.foldl_cons, ← names_of_step hstep]
      exact ih hrest

/-! ### Places along a reading -/

/-- Whether a root has begun. -/
def started : Progress → Bool
  | before => false
  | inside _ => true
  | after _ => true

/-- The place that a reading has come to. -/
def place (p : Progress) : Place where
  names := p.names
  started := p.started

/-- **The place goes along with the reading.** -/
lemma place_of_step {p q : Progress} {token : Token} (h : p.step token = .ok q) :
    q.place = p.place.next token := by
  have hnames := names_of_step h
  have hstarted : q.started = (p.started || (p.names.isEmpty && token.isTag)) := by
    cases moves_of_step h with
    | skipBefore hignored =>
        cases token with
        | text | silent => rfl
        | _ => cases hignored
    | _ => rfl
  rw [place, hnames, hstarted]
  rfl

/-- A token that is out of order stops the reading. -/
lemma step_of_violates {p : Progress} {token : Token} {e : Error}
    (h : p.place.Violates token e) (hread : token.IsReadable p.names) :
    p.step token = .error e := by
  have hblank : ∀ {t : Text} {q : Progress}, Text.isBlank t = false →
      (if Text.isBlank t then .ok q else .error .textOutsideRoot : Except Error Progress) =
        .error .textOutsideRoot := fun ht => if_neg (by rw [ht]; exact Bool.false_ne_true)
  cases p with
  | inside nest => cases h <;> contradiction
  | before =>
      cases h with
      | text _ ht => exact hblank ht
      | cdata | reference => rfl
      | startTag _ _ hstarted => cases hstarted
      | emptyTag _ _ hstarted => cases hstarted
  | after root =>
      cases h with
      | text _ ht => exact hblank ht
      | cdata | reference => rfl
      | startTag | emptyTag =>
          obtain ⟨tag, htag⟩ := hread
          rw [← (Tag.of_read htag).1]
          simp only [step, stepOutside, htag]
          rfl

/-- An end tag with the right name closes the innermost element. -/
lemma exists_step_close {nest outer : Nest} {name : Text} (h : nest.names = name :: outer.names) :
    ∃ next : Nest, (inside nest).step (.endTag name) = .ok (inside next) ∧
      next.names = outer.names := by
  obtain ⟨top, around⟩ := nest
  obtain ⟨rfl, houter⟩ := List.cons.inj h
  cases around with
  | nil => cases houter
  | cons parent rest => exact ⟨_, step_of_moves (.close top parent rest), houter⟩

/-- The end tag of the only open element closes the root. -/
lemma exists_step_closeRoot {nest : Nest} {name : Text} (h : nest.names = [name]) :
    ∃ root, (inside nest).step (.endTag name) = .ok (after root) := by
  obtain ⟨top, around⟩ := nest
  obtain ⟨rfl, houter⟩ := List.cons.inj h
  cases around with
  | nil => exact ⟨_, step_of_moves (.closeRoot top)⟩
  | cons parent rest => cases houter

/-- Outside all elements a token that is in order is ignored, unless it is a tag. -/
lemma isIgnored_or_isTag {p : Place} {token : Token} (hnames : p.names = [])
    (h : ∀ e, ¬ p.Violates token e) (hend : token.endFault? p.names = none) :
    token.isIgnored = true ∨ token.isTag = true := by
  cases token with
  | text t => exact .inl (by_contra fun ht => h _ (.text hnames (Bool.eq_false_iff.mpr ht)))
  | cdata t => exact absurd (.cdata t hnames) (h _)
  | reference name => exact absurd (.reference name hnames) (h _)
  | endTag name =>
      rw [hnames] at hend
      cases hend
  | silent => exact .inl rfl
  | startTag source => exact .inr rfl
  | emptyTag source => exact .inr rfl

/-- A token that can be read by itself and is not out of order is taken. -/
lemma exists_step {p : Progress} {token : Token} (h : ∀ e, ¬ p.place.Violates token e)
    (hend : token.endFault? p.names = none) (hread : token.IsReadable p.names) :
    ∃ q, p.step token = .ok q := by
  cases p with
  | before =>
      rcases isIgnored_or_isTag rfl h hend with hignored | htag
      · exact ⟨_, step_of_moves (.skipBefore hignored)⟩
      · cases token with
        | startTag source =>
            obtain ⟨tag, htag⟩ := hread
            exact ⟨_, step_of_moves (.openRoot htag)⟩
        | emptyTag source =>
            obtain ⟨tag, htag⟩ := hread
            exact ⟨_, step_of_moves (.emptyRoot htag)⟩
        | _ => cases htag
  | after root =>
      rcases isIgnored_or_isTag rfl h hend with hignored | htag
      · exact ⟨_, step_of_moves (.skipAfter root hignored)⟩
      · cases token with
        | startTag source => exact absurd (.startTag source rfl rfl) (h _)
        | emptyTag source => exact absurd (.emptyTag source rfl rfl) (h _)
        | _ => cases htag
  | inside nest =>
      cases token with
      | text t => exact ⟨_, rfl⟩
      | cdata t => exact ⟨_, rfl⟩
      | silent => exact ⟨_, rfl⟩
      | reference name =>
          obtain ⟨c, hc⟩ := hread (List.cons_ne_nil _ _)
          exact ⟨_, step_of_moves (.reference nest hc)⟩
      | startTag source =>
          obtain ⟨tag, htag⟩ := hread
          exact ⟨_, step_of_moves (.startTag nest htag)⟩
      | emptyTag source =>
          obtain ⟨tag, htag⟩ := hread
          exact ⟨_, step_of_moves (.emptyTag nest htag)⟩
      | endTag name =>
          have hname : name = nest.top.tag.name := by
            by_contra hne
            simp only [Token.endFault?, names, Nest.names, if_neg hne] at hend
            cases hend
          subst hname
          obtain ⟨top, around⟩ := nest
          cases around with
          | nil => exact ⟨_, step_of_moves (.closeRoot top)⟩
          | cons parent rest => exact ⟨_, step_of_moves (.close top parent rest)⟩

lemma finish_eq_error_iff {p : Progress} {e : Error} :
    p.finish = .error e ↔ p.place.ViolatesAtEnd e := by
  constructor
  · intro h
    cases p with
    | before => exact Except.error.inj h ▸ .missing rfl rfl
    | inside nest => exact Except.error.inj h ▸ .unclosed rfl
    | after root => cases h
  · intro h
    cases h with
    | unclosed h =>
        cases p with
        | inside nest => rw [finish, (List.cons.inj h).1]
        | _ => cases h
    | missing h hstarted =>
        cases p with
        | before => rfl
        | _ => cases hstarted

/-- **The reading ends with the first violation** if no token is faulty by itself. -/
theorem error_iff_firstViolation {p : Progress} {tokens : List Token}
    (hend : Along (fun names token => token.endFault? names = none) p.names tokens)
    (hread : Along (fun names token => token.IsReadable names) p.names tokens) (e : Error) :
    (p.steps tokens).bind finish = .error e ↔ FirstViolation p.place tokens e := by
  induction tokens generalizing p with
  | nil =>
      refine finish_eq_error_iff.trans ⟨.atEnd, fun h => ?_⟩
      cases h with
      | atEnd h => exact h
  | cons token tokens ih =>
      by_cases hviolates : ∃ e, p.place.Violates token e
      · obtain ⟨e', he'⟩ := hviolates
        constructor
        · intro h
          rw [steps, step_of_violates he' hread.1] at h
          cases h
          exact .here he'
        · intro h
          cases h with
          | here h =>
              rw [steps, step_of_violates h hread.1]
              rfl
          | later hno _ => exact absurd he' (hno e')
      · have hno : ∀ e, ¬ p.place.Violates token e := fun e he => hviolates ⟨e, he⟩
        obtain ⟨q, hstep⟩ := exists_step hno hend.1 hread.1
        have hnames := names_of_step hstep
        rw [steps_cons_of_step hstep, ih (hnames ▸ hend.2) (hnames ▸ hread.2),
          place_of_step hstep]
        constructor
        · exact .later hno
        · intro h
          cases h with
          | here h => exact absurd h (hno e)
          | later _ h => exact h

end Progress

/-- A content closes whatever it opens. -/
lemma IsContent.foldl_namesAfter {tokens : List Token} (h : IsContent tokens)
    (names : List Text) : tokens.foldl Token.namesAfter names = names := by
  induction h generalizing names with
  | nil => rfl
  | @leaf token tokens htoken h ih =>
      cases token with
      | text | cdata | reference | silent => exact ih names
      | _ => cases htoken
  | empty source h ih => exact ih names
  | paired source hcontent h ihcontent ih =>
      rw [List.foldl_cons, List.foldl_append, ihcontent]
      exact ih names

/-! ### Accepted documents are balanced -/

/-- What has to follow where elements with given names are open: the rest of the content and the
end tag of each, and after that nothing that counts. -/
def Closes : List Text → List Token → Prop
  | [], tokens => ∀ token ∈ tokens, token.isIgnored = true
  | name :: names, tokens =>
    ∃ content rest, tokens = content ++ .endTag name :: rest ∧ IsContent content ∧
      Closes names rest

namespace Closes

variable {name : Text} {names : List Text} {tokens : List Token}

lemma leaf {token : Token} (htoken : token.isLeaf = true) (h : Closes (name :: names) tokens) :
    Closes (name :: names) (token :: tokens) := by
  obtain ⟨content, rest, rfl, hcontent, hrest⟩ := h
  exact ⟨token :: content, rest, rfl, .leaf htoken hcontent, hrest⟩

lemma empty (source : Text) (h : Closes (name :: names) tokens) :
    Closes (name :: names) (.emptyTag source :: tokens) := by
  obtain ⟨content, rest, rfl, hcontent, hrest⟩ := h
  exact ⟨.emptyTag source :: content, rest, rfl, .empty source hcontent, hrest⟩

lemma paired (source : Text) (h : Closes (Tag.nameIn source :: name :: names) tokens) :
    Closes (name :: names) (.startTag source :: tokens) := by
  obtain ⟨content, _, rfl, hcontent, after, rest, rfl, hafter, hrest⟩ := h
  refine ⟨_, rest, ?_, .paired source hcontent hafter, hrest⟩
  simp

end Closes

namespace Progress

/-- What is left of an accepted document closes the elements that are open. -/
lemma closes_of_steps {p : Progress} {root : Element} {tokens : List Token}
    (hp : p.started = true) (h : p.steps tokens = .ok (after root)) : Closes p.names tokens := by
  induction tokens generalizing p with
  | nil =>
      cases Except.ok.inj h
      exact fun token htoken => absurd htoken List.not_mem_nil
  | cons token tokens ih =>
      obtain ⟨q, hstep, hrest⟩ := exists_of_steps_cons h
      cases moves_of_step hstep with
      | skipBefore | openRoot | emptyRoot => cases hp
      | skipAfter root hignored => exact List.forall_mem_cons.mpr ⟨hignored, ih rfl hrest⟩
      | text | cdata | reference | silent => exact .leaf rfl (ih rfl hrest)
      | emptyTag nest => exact .empty _ (ih rfl hrest)
      | startTag nest hread =>
          have hcloses := ih (p := inside _) rfl hrest
          rw [names_of_step hstep] at hcloses
          exact .paired _ hcloses
      | close | closeRoot => exact ⟨[], tokens, rfl, .nil, ih rfl hrest⟩

lemma isSingleRooted_of_steps {root : Element} {tokens : List Token}
    (h : before.steps tokens = .ok (after root)) : IsSingleRooted tokens := by
  induction tokens with
  | nil => cases h
  | cons token tokens ih =>
      obtain ⟨q, hstep, hrest⟩ := exists_of_steps_cons h
      cases moves_of_step hstep with
      | skipBefore hignored =>
          obtain ⟨front, element, back, rfl, helement, hfront, hback⟩ := ih hrest
          exact ⟨token :: front, element, back, rfl, helement,
            List.forall_mem_cons.mpr ⟨hignored, hfront⟩, hback⟩
      | @openRoot source tag hread =>
          have hcloses := closes_of_steps (p := inside _) rfl hrest
          rw [names_of_step hstep] at hcloses
          obtain ⟨content, back, rfl, hcontent, hback⟩ := hcloses
          refine ⟨[], _, back, ?_, .paired source hcontent, by simp, hback⟩
          simp
      | @emptyRoot source tag hread =>
          exact ⟨[], _, tokens, rfl, .empty source, by simp,
            closes_of_steps (p := after _) rfl hrest⟩

/-! ### Balanced documents are accepted -/

/-- Whether tokens are read inside an element and leave open what was open. -/
def ReadsThrough (nest : Nest) (tokens : List Token) : Prop :=
  ∃ last : Nest, (inside nest).steps tokens = .ok (inside last) ∧ last.names = nest.names

lemma ReadsThrough.cons {nest next : Nest} {token : Token} {tokens : List Token}
    (hstep : (inside nest).step token = .ok (inside next)) (hnames : next.names = nest.names)
    (h : ReadsThrough next tokens) : ReadsThrough nest (token :: tokens) := by
  obtain ⟨last, hlast, hsame⟩ := h
  exact ⟨last, (steps_cons_of_step hstep tokens).trans hlast, hsame.trans hnames⟩

/-- **A balanced content is read to its end**, where the same elements are open as before. -/
lemma readsThrough_of_isContent {tokens : List Token} (h : IsContent tokens) (nest : Nest)
    (hread : Along (fun names token => token.IsReadable names) nest.names tokens) :
    ReadsThrough nest tokens := by
  induction h generalizing nest with
  | nil => exact ⟨nest, rfl, rfl⟩
  | @leaf token tokens htoken h ih =>
      cases token with
      | text t => exact .cons rfl rfl (ih _ hread.2)
      | cdata t => exact .cons rfl rfl (ih _ hread.2)
      | silent => exact .cons rfl rfl (ih _ hread.2)
      | reference name =>
          obtain ⟨c, hc⟩ := hread.1 (List.cons_ne_nil _ _)
          exact .cons (step_of_moves (.reference nest hc)) rfl (ih _ hread.2)
      | _ => cases htoken
  | @empty tokens source h ih =>
      obtain ⟨tag, htag⟩ := hread.1
      exact .cons (step_of_moves (.emptyTag nest htag)) rfl (ih _ hread.2)
  | @paired content tokens source hcontent h ihcontent ih =>
      obtain ⟨tag, htag⟩ := hread.1
      obtain ⟨hinner, -, houter⟩ := hread.2.of_append
      rw [hcontent.foldl_namesAfter] at houter
      have hstart := step_of_moves (.startTag nest htag)
      have hopened : (nest.openElement { tag := tag }).names = Tag.nameIn source :: nest.names :=
        names_of_step hstart
      obtain ⟨inner, hrun, hinnerNames⟩ := ihcontent (nest.openElement { tag := tag })
        (by rw [hopened]; exact hinner)
      obtain ⟨next, hclose, hnames⟩ := exists_step_close (hinnerNames.trans hopened)
      obtain ⟨last, hlast, hlastNames⟩ := ih next (by rw [hnames]; exact houter)
      refine ⟨last, ?_, hlastNames.trans hnames⟩
      rw [steps_cons_of_step hstart, steps_append_of_steps hrun, steps_cons_of_step hclose, hlast]

/-- An element outside all others is read as a root. -/
lemma exists_steps_of_isElement {tokens : List Token} (h : IsElement tokens)
    (hread : Along (fun names token => token.IsReadable names) [] tokens) :
    ∃ root, before.steps tokens = .ok (after root) := by
  cases h with
  | empty source =>
      obtain ⟨tag, htag⟩ := hread.1
      exact ⟨_, steps_cons_of_step (step_of_moves (.emptyRoot htag)) []⟩
  | @paired content source hcontent =>
      obtain ⟨tag, htag⟩ := hread.1
      have hstart := step_of_moves (.openRoot htag)
      let opened : Nest := { top := { tag := tag } }
      have hopened : opened.names = [Tag.nameIn source] := names_of_step hstart
      obtain ⟨inner, hrun, hnames⟩ := readsThrough_of_isContent hcontent opened
        (by rw [hopened]; exact hread.2.of_append.1)
      obtain ⟨root, hclose⟩ := exists_step_closeRoot (hnames.trans hopened)
      refine ⟨root, ?_⟩
      rw [steps_cons_of_step hstart, steps_append_of_steps hrun, steps_cons_of_step hclose]
      rfl

/-- What is ignored changes nothing outside the root. -/
lemma step_of_isIgnored {p : Progress} (hp : p.names = []) {token : Token}
    (h : token.isIgnored = true) : p.step token = .ok p := by
  cases p with
  | before => exact step_of_moves (.skipBefore h)
  | after root => exact step_of_moves (.skipAfter root h)
  | inside nest => cases hp

lemma steps_of_isIgnored {p : Progress} {tokens : List Token} (hp : p.names = [])
    (h : ∀ token ∈ tokens, token.isIgnored = true) : p.steps tokens = .ok p := by
  induction tokens with
  | nil => rfl
  | cons token tokens ih =>
      obtain ⟨htoken, htokens⟩ := List.forall_mem_cons.mp h
      rw [steps_cons_of_step (step_of_isIgnored hp htoken), ih htokens]

/-- **Balanced documents are accepted** if no token is faulty by itself. -/
lemma exists_steps_of_isSingleRooted {tokens : List Token} (h : IsSingleRooted tokens)
    (hread : Along (fun names token => token.IsReadable names) [] tokens) :
    ∃ root, before.steps tokens = .ok (after root) := by
  obtain ⟨front, element, back, rfl, helement, hfront, hback⟩ := h
  have hskip := steps_of_isIgnored (p := before) rfl hfront
  have hnames : front.foldl Token.namesAfter [] = [] := (names_of_steps hskip).symm
  have hrest := hread.of_append.2
  rw [hnames] at hrest
  obtain ⟨root, hroot⟩ := exists_steps_of_isElement helement hrest.of_append.1
  refine ⟨root, ?_⟩
  rw [steps_append_of_steps hskip, steps_append_of_steps hroot]
  exact steps_of_isIgnored rfl hback

end Progress

/-! ### Documents -/

lemma Progress.bind_finish_eq_ok_iff {x : Except Error Progress} {root : Element} :
    x.bind finish = .ok root ↔ x = .ok (after root) := by
  rcases x with e | (_ | nest | r) <;> simp [Except.bind, finish]

/-- A document without faults of its own is judged by its tokens. -/
lemma IsFaultless.readDocument_eq {t : Text} (h : IsFaultless t) :
    Along (fun names token => token.endFault? names = none) [] (tokenize t).tokens ∧
      readDocument t = (Progress.before.steps (tokenize t).tokens).bind Progress.finish := by
  obtain ⟨hfault, htokens, hends⟩ := along_of_checkEnds h.cut
  refine ⟨?_, ?_⟩
  · rw [tokenize, htokens]
    exact hends
  · rw [readDocument_eq_complete, hfault, tokenize, htokens]
    rfl

/-- **Acceptance and first violation.** If nothing is faulty in a document but perhaps the order
of its tokens, it is accepted exactly if it is a single element with nothing that counts around
it, and otherwise the error is the first violation, from left to right. And no document at all
has an end tag that is unexpected where elements are closed. -/
theorem readDocument_of_isFaultless {t : Text} :
    (IsFaultless t →
      ((∃ root, readDocument t = .ok root) ↔ IsSingleRooted (tokenize t).tokens) ∧
        ∀ e, readDocument t = .error e ↔ FirstViolation {} (tokenize t).tokens e) ∧
      buildDocument t = (readDocument t).mapError .malformed ∧
        ∀ name, buildDocument t ≠ .error (.unexpectedEnd name) := by
  refine ⟨fun h => ?_, buildDocument_eq t, fun name hname => ?_⟩
  · obtain ⟨hends, hread⟩ := h.readDocument_eq
    rw [hread]
    refine ⟨?_, Progress.error_iff_firstViolation (p := .before) hends h.readable⟩
    simp only [Progress.bind_finish_eq_ok_iff]
    exact ⟨fun ⟨_, hroot⟩ => Progress.isSingleRooted_of_steps hroot,
      fun hsingle => Progress.exists_steps_of_isSingleRooted hsingle h.readable⟩
  · rw [buildDocument_eq] at hname
    cases hresult : readDocument t with
    | error e =>
        rw [hresult] at hname
        cases hname
    | ok root =>
        rw [hresult] at hname
        cases hname

/-- An element with a reference and an empty element in it, and the start of another one. -/
def twoRoots : Text := "<!--c--><a>&lt;<b/></a> <c>".toList

theorem readDocument_twoRoots :
    IsFaultless twoRoots ∧ readDocument twoRoots = .error (.multipleRoots ['c']) := by
  have hscan : scan (dropByteOrderMark twoRoots) =
      ⟨[.silent, .startTag ['a'], .reference ['l', 't'], .emptyTag ['b'], .endTag ['a'],
        .text [' '], .startTag ['c']], none⟩ := by cbv
  have htokens : tokenize twoRoots =
      ⟨[.silent, .startTag ['a'], .reference ['l', 't'], .emptyTag ['b'], .endTag ['a'],
        .text [' '], .startTag ['c']], none⟩ := by
    rw [tokenize, hscan]
    rfl
  have hfaultless : IsFaultless twoRoots := by
    refine ⟨by rw [htokens], ?_⟩
    rw [htokens]
    have hread : ∀ (selfClosing : Bool) (c : Char), Text.isMarkupSpace c = false →
        ∃ tag, Tag.read selfClosing [c] = .ok tag :=
      fun selfClosing c hc => ⟨_, Tag.read_bare selfClosing (List.forall_mem_singleton.mpr hc)⟩
    exact ⟨trivial, hread false 'a' rfl, fun _ => ⟨'<', rfl⟩, hread true 'b' rfl, trivial, trivial,
      hread false 'c' rfl, trivial⟩
  have hinside : ∀ {p : Place} {token : Token}, p.names ≠ [] → ∀ e, ¬ p.Violates token e := by
    intro p token h e he
    cases he <;> contradiction
  have hsilent : ∀ {p : Place} e, ¬ p.Violates .silent e := by
    intro p e he
    cases he
  have hblank : ∀ {p : Place} e, ¬ p.Violates (.text [' ']) e := by
    intro p e he
    cases he
    contradiction
  have hroot : ∀ e, ¬ ({} : Place).Violates (.startTag ['a']) e := by
    intro e he
    cases he
    contradiction
  refine ⟨hfaultless, ((readDocument_of_isFaultless.1 hfaultless).2 _).mpr ?_⟩
  rw [htokens]
  exact .later hsilent (.later hroot (.later (hinside (by decide)) (.later (hinside (by decide))
    (.later (hinside (by decide)) (.later hblank (.here (.startTag ['c'] rfl rfl)))))))

end DocComment.Xml
