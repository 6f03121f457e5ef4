import DocComment.Text.CharClass

/-!
What a command needs of its surroundings: a directory to start from, files to look at, and an
input stream. The operations live in a monad, so the same commands run against the machine and
against a tree of files held in memory.
-/

namespace DocComment

/-- What there is under a path. -/
inductive Lookup where
  | file (content : Text)
  | directory
  | missing
  /-- The path goes through something that is no directory. -/
  | blocked
  /-- The path, or a name on it, is longer than any can be. -/
  | tooLong
  /-- Something is there, but it cannot be read. -/
  | unreadable (reason : Text)
  deriving DecidableEq, Repr, Inhabited

namespace Lookup

/-- Whether there is anything under the path. -/
def isPresent : Lookup → Bool
  | file _ => true
  | directory => true
  | missing => false
  | blocked => false
  | tooLong => false
  | unreadable _ => true

/-- The content of a file, or the reason why there is none. -/
def content : Lookup → Except Text Text
  | file content => .ok content
  | directory => .error "Is a directory (os error 21)".toList
  | missing => .error "No such file or directory (os error 2)".toList
  | blocked => .error "Not a directory (os error 20)".toList
  | tooLong => .error "File name too long (os error 36)".toList
  | unreadable reason => .error reason

end Lookup

/-! ### Paths -/

/-- The components of a path: what stands between its slashes. -/
def components : Text → List Text
  | [] => [[]]
  | c :: t =>
    if c = '/' then [] :: components t
    else
      match components t with
      | [] => [[c]]
      | first :: rest => (c :: first) :: rest

/-- Whether a component leaves the place unchanged. -/
def staysPut (component : Text) : Bool :=
  component.isEmpty || component == ['.']

/-- A directory: the names on the way from the root to it, the last one first. -/
abbrev Directory := List Text

namespace Directory

/-- The directory of an absolute path that does not turn back. -/
def ofPath (path : Text) : Directory :=
  ((components path).filter fun c => !staysPut c).reverse

/-- The path of a directory, with a slash at its end. -/
def path : Directory → Text
  | [] => ['/']
  | name :: parent => path parent ++ name ++ ['/']

/-- The path of a file in a directory. -/
def file (d : Directory) (name : Text) : Text :=
  d.path ++ name

end Directory

/-- The surroundings of a command. -/
structure Environment (m : Type → Type) where
  /-- The current directory, if it can be told. -/
  directory : m (Option Directory)
  /-- What there is under a path, which counts from the current directory unless it begins with
  a slash. -/
  look : Text → m Lookup
  /-- The whole input stream, or the reason why it cannot be read. -/
  input : m (Except Text Text)

end DocComment
