/-!
# Paths

A path is a text; its slashes cut it into pieces. Two texts name the same path
when they have the same components: repeated slashes, a slash at the end and
single dots behind the first piece carry no meaning. The edits of a path
(`withFileName`, `withExtension`, `join`) keep the part of the text that they
do not concern as it is written.
-/

namespace JackToVm

structure Path where
  /-- The text before the first slash; empty for a path that begins with a
  slash. -/
  head : String
  /-- The texts behind each slash. -/
  tail : List String
deriving DecidableEq, Repr

namespace Path

/-! ## Texts -/

def ofText (text : String) : Path :=
  match text.toList.splitOn '/' with
  | [] => ⟨"", []⟩
  | first :: others => ⟨String.ofList first, others.map String.ofList⟩

def text (path : Path) : String :=
  "/".intercalate (path.head :: path.tail)

def empty : Path := ⟨"", []⟩

/-- Whether a path begins at the root: its text begins with a slash. -/
def isAbsolute (path : Path) : Bool :=
  path.head == "" && !path.tail.isEmpty

/-! ## Components -/

inductive Component where
  /-- The root, for a path that begins with a slash. -/
  | root
  /-- The current directory, for a path whose first piece is a single dot. -/
  | current
  /-- The parent directory, for a double dot. -/
  | parent
  /-- An entry of a directory. -/
  | name (name : String)
deriving DecidableEq, Repr

/-- Whether a piece behind a slash carries no meaning. -/
def isIdle (piece : String) : Bool :=
  piece == "" || piece == "."

def componentOfPiece? (piece : String) : Option Component :=
  if isIdle piece then none
  else if piece = ".." then some .parent
  else some (.name piece)

def headComponent? (path : Path) : Option Component :=
  if path.isAbsolute then some .root
  else if path.head = "" then none
  else if path.head = "." then some .current
  else if path.head = ".." then some .parent
  else some (.name path.head)

def components (path : Path) : List Component :=
  path.headComponent?.toList ++ path.tail.filterMap componentOfPiece?

/-- The place of a kind of component in the order. -/
def Component.rank : Component → Nat
  | .root => 0
  | .current => 1
  | .parent => 2
  | .name _ => 3

/-- The order of components: the root, the current directory, the parent, and
then the names by their characters. -/
def Component.order (first second : Component) : Ordering :=
  match first, second with
  | .name first, .name second => compare first second
  | first, second => compare first.rank second.rank

/-- The order of component lists, decided at the first difference. -/
def orderComponents : List Component → List Component → Ordering
  | [], [] => .eq
  | [], _ :: _ => .lt
  | _ :: _, [] => .gt
  | first :: firsts, second :: seconds =>
      (first.order second).then (orderComponents firsts seconds)

/-- The order of paths. It compares component by component, not character by
character. -/
def order (first second : Path) : Ordering :=
  orderComponents first.components second.components

/-! ## The last component -/

/-- The pieces behind a slash in reverse order, without those at the end that
carry no meaning. -/
def reversedTail (path : Path) : List String :=
  path.tail.reverse.dropWhile isIdle

/-- The last component, if it is a name. -/
def fileName? (path : Path) : Option String :=
  match path.reversedTail with
  | last :: _ => if last = ".." then none else some last
  | [] =>
      if isIdle path.head || path.head == ".." then none else some path.head

/-- The path without its last component; none for the root and for the empty
path. -/
def parent? (path : Path) : Option Path :=
  match path.reversedTail with
  | _ :: before =>
      let tail := (before.dropWhile isIdle).reverse
      if path.head = "" ∧ tail = [] then
        some ⟨"", [""]⟩
      else
        some ⟨path.head, tail⟩
  | [] => if path.head = "" then none else some empty

/-- At most `count` of a path and the paths above it, from the bottom up. -/
def ancestorsWithin : Nat → Path → List Path
  | 0, _ => []
  | count + 1, path =>
      path :: match path.parent? with
        | some above => ancestorsWithin count above
        | none => []

/-- A path and the paths above it, from the bottom up. -/
def ancestors (path : Path) : List Path :=
  ancestorsWithin (path.tail.length + 2) path

/-- A file name cut at its last dot: the stem before it and the extension
behind it. A dot at the beginning belongs to the stem. -/
def splitName (name : String) : String × Option String :=
  let reversed := name.toList.reverse
  match reversed.dropWhile (· != '.') with
  | _ :: c :: stem =>
      (String.ofList (c :: stem).reverse,
        some (String.ofList (reversed.takeWhile (· != '.')).reverse))
  | _ => (name, none)

/-- The file name without its extension. -/
def stem? (path : Path) : Option String :=
  path.fileName?.map fun name => (splitName name).1

def extension? (path : Path) : Option String :=
  path.fileName?.bind fun name => (splitName name).2

/-! ## Edits -/

/-- `added` as seen from `base`: an absolute path stays, any other is put
behind `base`, with a slash between unless one is there. -/
def join (base added : Path) : Path :=
  if added.isAbsolute || base == empty then
    added
  else if base.tail.getLast? = some "" then
    ⟨base.head, base.tail.dropLast ++ added.head :: added.tail⟩
  else
    ⟨base.head, base.tail ++ added.head :: added.tail⟩

/-- The path with another file name; a path without one gets it added. -/
def withFileName (path : Path) (name : String) : Path :=
  let directory :=
    if path.fileName?.isSome then path.parent?.getD path else path
  directory.join (ofText name)

/-- The file name of a stem and an extension, without a dot for an empty
extension. -/
def nameOfParts (stem extension : String) : String :=
  if extension = "" then stem else stem ++ "." ++ extension

/-- The path with another extension of its file name; a path without file name
stays as it is. -/
def withExtension (path : Path) (extension : String) : Path :=
  match path.stem? with
  | none => path
  | some stem =>
      match path.reversedTail with
      | _ :: before =>
          ⟨path.head, before.reverse ++ [nameOfParts stem extension]⟩
      | [] => ⟨nameOfParts stem extension, []⟩

end Path

end JackToVm
