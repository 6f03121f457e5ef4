import DocComment.Environment

/-!
A tree of files held in memory, and finding things in it by paths, as a file system does.

* **Components.** A path is cut at its slashes; empty components and single dots change
  nothing, two dots lead to the directory around.
* **Walking.** The walk keeps the directories it has come through, so it can turn back. It stops
  where something is missing or is no directory, even if the next component would turn back.
* **Limits.** Paths and the names on them have a greatest size. A name counts only where the walk
  gets to it, a path as a whole.
-/

namespace DocComment

/-- A file or a directory. -/
inductive FileTree where
  | file (content : Text)
  | directory (entries : List (Text × FileTree))
  deriving Repr, Inhabited

namespace FileTree

/-! ### Adding -/

/-- Changes the entry with a given name, or adds one. -/
def alterEntry (name : Text) (change : Option FileTree → FileTree) :
    List (Text × FileTree) → List (Text × FileTree)
  | [] => [(name, change none)]
  | (n, t) :: rest =>
    if n = name then (n, change (some t)) :: rest else (n, t) :: alterEntry name change rest

/-- Puts something under a path of names, with the directories on the way to it. Of two
directories in one place the earlier stays. -/
def add (tree : FileTree) : List Text → FileTree → FileTree
  | [], content =>
    match tree, content with
    | directory entries, directory _ => directory entries
    | _, content => content
  | name :: names, content =>
    let entries :=
      match tree with
      | directory entries => entries
      | file _ => []
    directory
      (alterEntry name (fun old => add (old.getD (directory [])) names content) entries)

/-! ### Looking -/

/-- The greatest number of bytes of a name. -/
def maxNameBytes : Nat := 255

/-- The greatest number of bytes of a path. -/
def maxPathBytes : Nat := 4095

/-- A walk through a tree: where it is, and the directories it has come through. -/
structure Walk where
  here : FileTree
  above : List FileTree := []

/-- One component further. -/
def Walk.step (w : Walk) (component : Text) : Except Lookup Walk :=
  match w.here with
  | file _ => .error .blocked
  | directory entries =>
    if staysPut component then .ok w
    else if component = "..".toList then
      match w.above with
      | [] => .ok w
      | parent :: rest => .ok ⟨parent, rest⟩
    else if maxNameBytes < component.byteLength then .error .tooLong
    else
      match entries.lookup component with
      | none => .error .missing
      | some next => .ok ⟨next, w.here :: w.above⟩

/-- Some components further. -/
def Walk.steps (w : Walk) : List Text → Except Lookup Walk
  | [] => .ok w
  | component :: rest => (w.step component).bind fun next => next.steps rest

/-- What a walk has come to. -/
def Walk.lookup (w : Walk) : Lookup :=
  match w.here with
  | file content => .file content
  | directory _ => .directory

/-- The walk from the root to the directory of given names, as far as there is one. -/
def walkTo (root : FileTree) (names : List Text) : Walk :=
  match ({ here := root } : Walk).steps names with
  | .ok w => w
  | .error _ => { here := root }

/-- What there is under a path, counted from a directory. No path at all leads nowhere. -/
def look (root : FileTree) (current : Directory) (path : Text) : Lookup :=
  let start : Walk :=
    if path.head? = some '/' then { here := root } else root.walkTo current.reverse
  if path.isEmpty then .missing
  else if maxPathBytes < path.byteLength then .tooLong
  else
    match start.steps (components path) with
    | .ok w => w.lookup
    | .error l => l

/-- The surroundings given by a tree, a directory in it and an input text. -/
def environment (root : FileTree) (current : Directory) (input : Text) : Environment Id where
  directory := some current
  look := root.look current
  input := .ok input

end FileTree

end DocComment
