import DocComment.Proofs.Xml.RoundTrip
import DocComment.Proofs.Xml.Violation

/-!
The tree of a document as an image of its tokens.

* **Events.** A tree is laid out as a sequence of events (`Node.events`): tags, texts and end
  tags, in document order. `Token.Shows` says which event a token stands for, told from what is
  written in it, and `counted` which tokens of a document stand for one.
* **Texts** that follow one another are one text (`merge`). In a tidy tree no two texts stand
  side by side and a tag that closes itself has no content (`Node.isTidy`), so that nothing is
  left to merge in it (`merge_events`).
* **One step** appends the event of its token to the events of the open elements, up to merging
  (`events_of_moves`), and keeps them tidy (`isTidy_of_moves`). Hence the events of the root are
  those of the whole document (`exists_events_of_steps`).
-/

namespace DocComment.Xml

/-! ### Events -/

/-- A piece of a document laid out in a row. -/
inductive Event where
  /-- A tag that begins an element, or that is one if it closes itself. -/
  | tag (tag : Tag)
  | text (text : Text)
  | endTag (name : Text)

namespace Event

/-- Puts an event in front of others, as part of the text that they begin with if it is a text
and they do. -/
def join : Event → List Event → List Event
  | .text s, .text t :: es => .text (s ++ t) :: es
  | e, es => e :: es

/-- Whether an event is a text. -/
def isText : Event → Bool
  | .text _ => true
  | _ => false

end Event

/-- Events with each run of texts made into one text. -/
def merge (es : List Event) : List Event :=
  es.foldr Event.join []

mutual

/-- **The events of a node** in document order. An element that does not close itself ends with
an end tag of its name. -/
def Node.events : Node → List Event
  | .text t => [.text t]
  | .element tag content =>
      if tag.selfClosing then [.tag tag]
      else .tag tag :: (contentEvents content ++ [.endTag tag.name])

/-- The events of a content, one node after another. -/
def contentEvents : List Node → List Event
  | [] => []
  | n :: ns => n.events ++ contentEvents ns

end

mutual

/-- Whether no two texts stand side by side in a node, at any depth, and no tag that closes
itself has content. -/
def Node.isTidy : Node → Bool
  | .text _ => true
  | .element tag content => (!tag.selfClosing || content.isEmpty) && areTidy content

/-- Whether a content is tidy. -/
def areTidy : List Node → Bool
  | [] => true
  | n :: ns => n.isTidy && !(n.isText && startsWithText ns) && areTidy ns

end

/-! ### What tokens show -/

namespace Token

/-- **The event that a token shows.** A tag shows what is written in it, text and character data
show themselves, and a reference shows the character that it stands for. -/
inductive Shows : Token → Event → Prop
  | startTag {source : Text} {tag : Tag} (h : tag.IsWrittenIn source)
      (hopen : tag.selfClosing = false) : Shows (.startTag source) (.tag tag)
  | emptyTag {source : Text} {tag : Tag} (h : tag.IsWrittenIn source)
      (hclosed : tag.selfClosing = true) : Shows (.emptyTag source) (.tag tag)
  | endTag (name : Text) : Shows (.endTag name) (.endTag name)
  | text (t : Text) : Shows (.text t) (.text t)
  | cdata (t : Text) : Shows (.cdata t) (.text t)
  | reference {name : Text} {c : Char} (h : Reference.ofContent name = .ok c) :
      Shows (.reference name) (.text [c])

/-- Whether a token counts where elements with given names are open: silent tokens do not, and
neither does text outside all elements. -/
def counts (names : List Text) : Token → Bool
  | .silent => false
  | .text _ => !names.isEmpty
  | _ => true

end Token

/-- The tokens that count, from a place on where elements with given names are open. -/
def counted (names : List Text) : List Token → List Token
  | [] => []
  | token :: tokens =>
    let others := counted (token.namesAfter names) tokens
    if token.counts names then token :: others else others

/-- **A tree is the image of tokens**: the tokens that count are one balanced element, the events
that they show are those of the tree, once texts that follow one another are merged, and the
tree is tidy. -/
structure Element.IsImage (root : Element) (tokens : List Token) : Prop where
  balanced : IsSingleRooted tokens
  events : ∃ es, List.Forall₂ Token.Shows (counted [] tokens) es ∧ root.toNode.events = merge es
  tidy : root.toNode.isTidy = true

/-! ### Merging -/

lemma merge_append (xs ys : List Event) : merge (xs ++ ys) = xs.foldr Event.join (merge ys) :=
  List.foldr_append

lemma merge_append_congr {ys zs : List Event} (xs : List Event) (h : merge ys = merge zs) :
    merge (xs ++ ys) = merge (xs ++ zs) := by
  rw [merge_append, merge_append, h]

/-- Two texts in front of events are as good as one. -/
lemma Event.join_text_append (s t : Text) (es : List Event) :
    join (.text (s ++ t)) es = join (.text s) (join (.text t) es) := by
  cases es with
  | nil => rfl
  | cons e es =>
      cases e with
      | text u => simp only [join, List.append_assoc]
      | tag | endTag => rfl

/-- Nothing is joined in front of events that do not begin with a text. -/
lemma Event.join_of_not_isText {e : Event} {es : List Event}
    (h : (e.isText && es.head?.any isText) = false) : join e es = e :: es := by
  cases e with
  | tag | endTag => rfl
  | text s =>
      cases es with
      | nil => rfl
      | cons e es =>
          cases e with
          | text t => cases h
          | tag | endTag => rfl

/-! ### Contents as they grow -/

lemma contentEvents_append (xs ys : List Node) :
    contentEvents (xs ++ ys) = contentEvents xs ++ contentEvents ys := by
  induction xs with
  | nil => rfl
  | cons n xs ih => simp only [List.cons_append, contentEvents, ih, List.append_assoc]

/-- A text that is appended to a content is appended to its events, up to merging. -/
lemma merge_contentEvents_appendText (t : Text) (content : List Node) (later : List Event) :
    merge (contentEvents (Element.appendText t content) ++ later) =
      merge (contentEvents content ++ .text t :: later) := by
  induction content using Element.appendText.induct with
  | case1 => rfl
  | case2 last => exact Event.join_text_append last t (merge later)
  | case3 n ns hne ih =>
      rw [Element.appendText.eq_3 _ _ _ hne, contentEvents, contentEvents, List.append_assoc,
        List.append_assoc]
      exact merge_append_congr _ ih

lemma startsWithText_appendText (t : Text) {content : List Node} (h : content ≠ []) :
    startsWithText (Element.appendText t content) = startsWithText content := by
  cases content with
  | nil => exact absurd rfl h
  | cons n ns => cases n <;> cases ns <;> rfl

lemma areTidy_appendText (t : Text) (content : List Node) :
    areTidy (Element.appendText t content) = areTidy content := by
  induction content using Element.appendText.induct with
  | case1 => rfl
  | case2 last => rfl
  | case3 n ns hne ih =>
      rw [Element.appendText.eq_3 _ _ _ hne, areTidy, areTidy, ih]
      cases ns with
      | nil =>
          cases n with
          | text last => exact absurd rfl (hne last rfl)
          | element tag content => rfl
      | cons m ms => rw [startsWithText_appendText t (List.cons_ne_nil m ms)]

lemma areTidy_concat {content : List Node} {n : Node} (h : areTidy content = true)
    (hn : n.isTidy = true) (htext : n.isText = false) : areTidy (content ++ [n]) = true := by
  induction content with
  | nil => simp [areTidy, hn, htext]
  | cons m ms ih =>
      simp only [areTidy, Bool.and_eq_true] at h
      have hstarts : startsWithText (ms ++ [n]) = startsWithText ms := by
        cases ms with
        | nil => exact htext
        | cons => rfl
      simp only [List.cons_append, areTidy, hstarts, h.1, ih h.2, Bool.and_self]

/-! ### Nothing is left to merge in a tidy tree -/

lemma head?_contentEvents {n : Node} {ns : List Node} (later : List Event) :
    (contentEvents (n :: ns) ++ later).head?.any Event.isText = n.isText := by
  cases n with
  | text t => rfl
  | element tag content =>
      rw [contentEvents, Node.events]
      split <;> rfl

lemma head?_merge (es : List Event) :
    (merge es).head?.any Event.isText = es.head?.any Event.isText := by
  cases es with
  | nil => rfl
  | cons e es =>
      rw [merge, List.foldr_cons]
      cases e with
      | text s =>
          cases es.foldr Event.join [] with
          | nil => rfl
          | cons f fs => cases f <;> rfl
      | tag | endTag => rfl

mutual

/-- In front of what does not continue its text, the events of a tidy node stay as they are. -/
lemma merge_events_append (n : Node) (hn : n.isTidy = true) (later : List Event)
    (hmeet : (n.isText && later.head?.any Event.isText) = false) :
    merge (n.events ++ later) = n.events ++ merge later := by
  match n with
  | .text t =>
      have hjoin : (Event.isText (.text t) && (merge later).head?.any Event.isText) = false := by
        rw [head?_merge]
        exact hmeet
      exact Event.join_of_not_isText hjoin
  | .element tag content =>
      rw [Node.events]
      split
      · rfl
      · simp only [Node.isTidy, Bool.and_eq_true] at hn
        have hcontent := merge_contentEvents_append content hn.2 (.endTag tag.name :: later)
          (Bool.and_false _)
        rw [List.cons_append, List.cons_append, List.append_assoc, List.append_assoc]
        exact congrArg (.tag tag :: ·) hcontent

/-- In front of what does not continue their last text, the events of a tidy content stay as
they are. -/
lemma merge_contentEvents_append (ns : List Node) (hns : areTidy ns = true) (later : List Event)
    (hmeet : (endsWithText ns && later.head?.any Event.isText) = false) :
    merge (contentEvents ns ++ later) = contentEvents ns ++ merge later := by
  match ns with
  | [] => rfl
  | n :: ns =>
      simp only [areTidy, Bool.and_eq_true, Bool.not_eq_true'] at hns
      obtain ⟨⟨hn, hapart⟩, hns⟩ := hns
      have hfirst : (n.isText && (contentEvents ns ++ later).head?.any Event.isText) = false := by
        cases ns with
        | nil => exact hmeet
        | cons m ms => rw [head?_contentEvents]; exact hapart
      have hlast : (endsWithText ns && later.head?.any Event.isText) = false := by
        cases ns with
        | nil => rfl
        | cons m ms => exact hmeet
      rw [contentEvents, List.append_assoc, merge_events_append n hn _ hfirst,
        merge_contentEvents_append ns hns later hlast, List.append_assoc]

end

/-- **Nothing is left to merge in a tidy tree.** -/
theorem merge_events {n : Node} (hn : n.isTidy = true) : merge n.events = n.events := by
  have h := merge_events_append n hn [] (Bool.and_false _)
  simpa [merge] using h

/-! ### Open elements -/

/-- The events of open elements, given from the inside out: of each element its tag and the
content that it has so far. -/
def openEvents : List Element → List Event
  | [] => []
  | e :: outer => openEvents outer ++ .tag e.tag :: contentEvents e.content

/-- Whether an element may be open: it does not close itself, and its content is tidy. -/
structure Element.IsOpen (e : Element) : Prop where
  selfClosing : e.tag.selfClosing = false
  content : areTidy e.content = true

lemma Element.IsOpen.events_toNode {e : Element} (h : e.IsOpen) :
    e.toNode.events = .tag e.tag :: (contentEvents e.content ++ [.endTag e.tag.name]) := by
  rw [toNode, Node.events, h.selfClosing]
  rfl

lemma Element.IsOpen.isTidy_toNode {e : Element} (h : e.IsOpen) : e.toNode.isTidy = true := by
  rw [toNode, Node.isTidy, h.selfClosing, h.content]
  rfl

lemma Element.isTidy_of_tag (tag : Tag) : ({ tag := tag } : Element).toNode.isTidy = true := by
  simp [toNode, Node.isTidy, areTidy]

lemma Element.isOpen_of_tag {tag : Tag} (h : tag.selfClosing = false) :
    ({ tag := tag } : Element).IsOpen :=
  ⟨h, rfl⟩

lemma Element.IsOpen.pushText {e : Element} (h : e.IsOpen) (t : Text) : (e.pushText t).IsOpen :=
  ⟨h.selfClosing, (areTidy_appendText t e.content).trans h.content⟩

lemma Element.IsOpen.pushChild {e child : Element} (h : e.IsOpen)
    (hchild : child.toNode.isTidy = true) : (e.pushChild child).IsOpen :=
  ⟨h.selfClosing, areTidy_concat h.content hchild rfl⟩

namespace Progress

/-- The events of what has been read. -/
def events : Progress → List Event
  | before => []
  | inside nest => openEvents (nest.top :: nest.outer)
  | after root => root.toNode.events

/-- Whether what has been read is tidy. -/
def IsTidy : Progress → Prop
  | before => True
  | inside nest => ∀ e ∈ nest.top :: nest.outer, e.IsOpen
  | after root => root.toNode.isTidy = true

/-! ### One step -/

variable {p q : Progress} {token : Token}

/-- **A step keeps everything tidy.** -/
lemma isTidy_of_moves (h : Moves p token q) (hp : p.IsTidy) : q.IsTidy := by
  cases h with
  | skipBefore | skipAfter | silent => exact hp
  | openRoot hread =>
      exact List.forall_mem_singleton.mpr (Element.isOpen_of_tag (Tag.of_read hread).2)
  | emptyRoot hread => exact Element.isTidy_of_tag _
  | text nest t | cdata nest t =>
      obtain ⟨htop, houter⟩ := List.forall_mem_cons.mp hp
      exact List.forall_mem_cons.mpr ⟨htop.pushText t, houter⟩
  | @reference nest name c hc =>
      obtain ⟨htop, houter⟩ := List.forall_mem_cons.mp hp
      exact List.forall_mem_cons.mpr ⟨htop.pushText [c], houter⟩
  | startTag nest hread =>
      exact List.forall_mem_cons.mpr ⟨Element.isOpen_of_tag (Tag.of_read hread).2, hp⟩
  | emptyTag nest hread =>
      obtain ⟨htop, houter⟩ := List.forall_mem_cons.mp hp
      exact List.forall_mem_cons.mpr ⟨htop.pushChild (Element.isTidy_of_tag _), houter⟩
  | close top parent rest =>
      obtain ⟨htop, hparent, hrest⟩ := by simpa only [IsTidy, List.forall_mem_cons] using hp
      exact List.forall_mem_cons.mpr ⟨hparent.pushChild htop.isTidy_toNode, hrest⟩
  | closeRoot root => exact (hp root List.mem_cons_self).isTidy_toNode

lemma events_pushText (nest : Nest) (t : Text) (later : List Event) :
    merge ((inside (nest.pushText t)).events ++ later) =
      merge ((inside nest).events ++ .text t :: later) := by
  simp only [events, openEvents, Nest.pushText, Element.pushText, List.append_assoc,
    List.cons_append]
  exact merge_append_congr _
    (merge_append_congr [.tag nest.top.tag] (merge_contentEvents_appendText t _ later))

/-- **A step appends the event that its token shows**, up to merging, or the token does not
count and nothing changes. -/
lemma events_of_moves (h : Moves p token q) (hp : p.IsTidy) :
    (token.counts p.names = false ∧ q.events = p.events) ∨
      (token.counts p.names = true ∧ ∃ e, token.Shows e ∧
        ∀ later, merge (q.events ++ later) = merge (p.events ++ e :: later)) := by
  have hignored : ∀ {token : Token}, token.isIgnored = true → token.counts [] = false := by
    intro token htoken
    cases token with
    | text | silent => rfl
    | _ => cases htoken
  cases h with
  | skipBefore h => exact .inl ⟨hignored h, rfl⟩
  | skipAfter root h => exact .inl ⟨hignored h, rfl⟩
  | silent nest => exact .inl ⟨rfl, rfl⟩
  | openRoot hread =>
      obtain ⟨hwritten, hopen⟩ := Tag.read_eq_ok_iff.mp hread
      exact .inr ⟨rfl, _, .startTag hwritten hopen, fun later => rfl⟩
  | emptyRoot hread =>
      obtain ⟨hwritten, hclosed⟩ := Tag.read_eq_ok_iff.mp hread
      refine .inr ⟨rfl, _, .emptyTag hwritten hclosed, fun later => congrArg merge ?_⟩
      simp [events, Element.toNode, Node.events, hclosed]
  | text nest t => exact .inr ⟨rfl, _, .text t, events_pushText nest t⟩
  | cdata nest t => exact .inr ⟨rfl, _, .cdata t, events_pushText nest t⟩
  | @reference nest name c hc => exact .inr ⟨rfl, _, .reference hc, events_pushText nest [c]⟩
  | startTag nest hread =>
      obtain ⟨hwritten, hopen⟩ := Tag.read_eq_ok_iff.mp hread
      refine .inr ⟨rfl, _, .startTag hwritten hopen, fun later => congrArg merge ?_⟩
      simp [events, openEvents, Nest.openElement, contentEvents]
  | @emptyTag nest source tag hread =>
      obtain ⟨hwritten, hclosed⟩ := Tag.read_eq_ok_iff.mp hread
      refine .inr ⟨rfl, _, .emptyTag hwritten hclosed, fun later => congrArg merge ?_⟩
      simp [events, openEvents, Nest.pushChild, Element.pushChild, contentEvents_append,
        contentEvents, Element.toNode, Node.events, hclosed]
  | close top parent rest =>
      have htop := hp top List.mem_cons_self
      refine .inr ⟨rfl, _, .endTag top.tag.name, fun later => congrArg merge ?_⟩
      simp [events, openEvents, Element.pushChild, contentEvents_append, contentEvents,
        htop.events_toNode]
  | closeRoot root =>
      have hroot := hp root List.mem_cons_self
      refine .inr ⟨rfl, _, .endTag root.tag.name, fun later => congrArg merge ?_⟩
      simp [events, openEvents, hroot.events_toNode]

/-! ### A whole reading -/

/-- **A reading appends the events that its tokens show**, up to merging, and keeps everything
tidy. -/
theorem exists_events_of_steps {p q : Progress} {tokens : List Token}
    (h : p.steps tokens = .ok q) (hp : p.IsTidy) :
    q.IsTidy ∧ ∃ es, List.Forall₂ Token.Shows (counted p.names tokens) es ∧
      merge q.events = merge (p.events ++ es) := by
  induction tokens generalizing p with
  | nil =>
      cases Except.ok.inj h
      exact ⟨hp, [], .nil, by rw [List.append_nil]⟩
  | cons token tokens ih =>
      obtain ⟨next, hstep, hrest⟩ := exists_of_steps_cons h
      have hmoves := moves_of_step hstep
      obtain ⟨hq, es, hes, hmerge⟩ := ih hrest (isTidy_of_moves hmoves hp)
      rw [names_of_step hstep] at hes
      refine ⟨hq, ?_⟩
      rw [counted]
      rcases events_of_moves hmoves hp with ⟨hcounts, hsame⟩ | ⟨hcounts, e, he, happend⟩
      · rw [hsame] at hmerge
        exact ⟨es, by simpa [hcounts] using hes, hmerge⟩
      · exact ⟨e :: es, by simpa [hcounts] using ⟨he, hes⟩, hmerge.trans (happend es)⟩

end Progress

/-! ### Documents -/

/-- **The tree is a faithful image of the tokens.** An accepted document is cut to its end, and
its root is the image of its tokens. -/
theorem isImage_of_readDocument {t : Text} {root : Element} (h : readDocument t = .ok root) :
    (tokenize t).fault = none ∧ root.IsImage (tokenize t).tokens := by
  obtain ⟨hfault, hsteps⟩ := steps_of_readDocument h
  obtain ⟨htidy, es, hes, hmerge⟩ := Progress.exists_events_of_steps hsteps trivial
  exact ⟨hfault, Progress.isSingleRooted_of_steps hsteps,
    ⟨es, hes, (merge_events htidy).symm.trans hmerge⟩, htidy⟩

/-- An element with a declaration of a namespace, and with a text broken by a comment and a
reference. -/
def brokenText : Text :=
  "<a xmlns='u' b = '&lt;'>x<!-- -->&amp;<c/></a>".toList

def brokenRoot : Element where
  tag := { name := ['a'], attributes := ⟨[(['b'], ['<'])], by decide⟩ }
  content := [.text ['x', '&'], .element { name := ['c'], selfClosing := true } []]

theorem isImage_brokenRoot :
    readDocument brokenText = .ok brokenRoot ∧ (tokenize brokenText).fault = none ∧
      brokenRoot.IsImage (tokenize brokenText).tokens := by
  have hscan : scan (dropByteOrderMark brokenText) =
      ⟨[.startTag "a xmlns='u' b = '&lt;'".toList, .text ['x'], .silent,
        .reference ['a', 'm', 'p'], .emptyTag ['c'], .endTag ['a']], none⟩ := by cbv
  have hxmlns : Tag.AttributeIn " xmlns='u' b = '&lt;'".toList
      ⟨"xmlns".toList, ['u'], " b = '&lt;'".toList⟩ :=
    @Tag.AttributeIn.intro [' '] "mlns".toList [] [] ['u'] _ 'x' '\'' (by decide) rfl
      (List.all_eq_true.mp rfl) (by decide) (by decide) rfl (by decide)
  have hb : Tag.AttributeIn " b = '&lt;'".toList ⟨['b'], "&lt;".toList, []⟩ :=
    @Tag.AttributeIn.intro [' '] [] [' '] [' '] "&lt;".toList _ 'b' '\'' (by decide) rfl
      (List.forall_mem_nil _) (by decide) (by decide) rfl (by decide)
  have hvalue : Spells isSpecialInValue ['<'] "&lt;".toList :=
    .reference (.predefined (by decide : ("lt", '<') ∈ _)) .nil
  have hroot : Tag.read false "a xmlns='u' b = '&lt;'".toList = .ok brokenRoot.tag :=
    Tag.read_eq_ok_iff.mpr ⟨⟨rfl, _, _, .cons hxmlns (.cons hb (.nil (by decide : Tag.IsGap []))),
      by decide, .dropped rfl (.kept rfl (hvalue.resolve (by decide)) .nil), .refl _⟩, rfl⟩
  have hchild : Tag.read true ['c'] = .ok { name := ['c'], selfClosing := true } :=
    Tag.read_bare true (List.forall_mem_singleton.mpr rfl)
  have hread : readDocument brokenText = .ok brokenRoot := by
    rw [readDocument_eq_complete, hscan]
    simp only
    open Progress in
    rw [steps_cons_of_step (step_of_moves (.openRoot hroot)),
      steps_cons_of_step (step_of_moves (.text _ _)),
      steps_cons_of_step (step_of_moves (.silent _)),
      steps_cons_of_step (step_of_moves (.reference _ (c := '&') rfl)),
      steps_cons_of_step (step_of_moves (.emptyTag _ hchild))]
    rfl
  exact ⟨hread, isImage_of_readDocument hread⟩

end DocComment.Xml
