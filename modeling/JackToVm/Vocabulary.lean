import JackToVm.Token
import JackToVm.Variable

/-!
# What the keywords of the grammar mean

The grammar uses a keyword for one of a few purposes: to name a built-in type,
to say what is declared, to stand for a constant, or to begin a statement.
Each purpose has a type here, with the tokens that stand for its values.
-/

namespace JackToVm

/-! ## Types -/

/-- The types that a declaration can name. -/
inductive TypeName where
  | int
  | char
  | boolean
  /-- A class, which may be declared elsewhere. -/
  | named (className : String)
deriving DecidableEq, Repr

namespace TypeName

def token : TypeName → Token
  | .int => .keyword .int
  | .char => .keyword .char
  | .boolean => .keyword .boolean
  | .named className => .identifier className

def ofToken? : Token → Option TypeName
  | .keyword .int => some .int
  | .keyword .char => some .char
  | .keyword .boolean => some .boolean
  | .identifier className => some (.named className)
  | _ => none

/-- The name of a type, as symbol tables hold it. -/
def word (type : TypeName) : String :=
  type.token.text

theorem ofToken?_eq_some_iff {token : Token} {type : TypeName} :
    ofToken? token = some type ↔ token = type.token := by
  constructor
  · intro found
    unfold ofToken? at found
    split at found <;> simp_all [TypeName.token, eq_comm]
  · rintro rfl
    cases type <;> rfl

end TypeName

/-! ## Declarations -/

/-- The kinds of variables that a class declares itself. -/
inductive ClassVariableKind where
  | static
  | field
deriving DecidableEq, Repr

namespace ClassVariableKind

/-- The keyword that begins a declaration. -/
def keyword : ClassVariableKind → Keyword
  | .static => .static
  | .field => .field

def ofToken? : Token → Option ClassVariableKind
  | .keyword .static => some .static
  | .keyword .field => some .field
  | _ => none

/-- The kind of variable that is declared. -/
def kind : ClassVariableKind → VariableKind
  | .static => .static
  | .field => .field

theorem ofToken?_eq_some_iff {token : Token} {kind : ClassVariableKind} :
    ofToken? token = some kind ↔ token = .keyword kind.keyword := by
  constructor
  · intro found
    unfold ofToken? at found
    split at found <;> simp_all [ClassVariableKind.keyword, eq_comm]
  · rintro rfl
    cases kind <;> rfl

end ClassVariableKind

/-- The ways to declare a subroutine. -/
inductive SubroutineKind where
  | constructor
  | function
  | method
deriving DecidableEq, Repr

namespace SubroutineKind

def keyword : SubroutineKind → Keyword
  | .constructor => .constructor
  | .function => .function
  | .method => .method

def ofToken? : Token → Option SubroutineKind
  | .keyword .constructor => some .constructor
  | .keyword .function => some .function
  | .keyword .method => some .method
  | _ => none

theorem ofToken?_eq_some_iff {token : Token} {kind : SubroutineKind} :
    ofToken? token = some kind ↔ token = .keyword kind.keyword := by
  constructor
  · intro found
    unfold ofToken? at found
    split at found <;> simp_all [SubroutineKind.keyword, eq_comm]
  · rintro rfl
    cases kind <;> rfl

end SubroutineKind

/-! ## Constants and statements -/

/-- The constants that have a keyword of their own. -/
inductive KeywordConstant where
  | true
  | false
  | null
  | this
deriving DecidableEq, Repr

namespace KeywordConstant

def keyword : KeywordConstant → Keyword
  | .true => .true
  | .false => .false
  | .null => .null
  | .this => .this

def ofKeyword? : Keyword → Option KeywordConstant
  | .true => some .true
  | .false => some .false
  | .null => some .null
  | .this => some .this
  | _ => none

theorem ofKeyword?_eq_some_iff {keyword : Keyword}
    {constant : KeywordConstant} :
    ofKeyword? keyword = some constant ↔ keyword = constant.keyword := by
  constructor
  · intro found
    unfold ofKeyword? at found
    split at found <;> simp_all [KeywordConstant.keyword, eq_comm]
  · rintro rfl
    cases constant <;> rfl

end KeywordConstant

/-- The keywords that begin a statement. -/
inductive StatementWord where
  | let
  | if
  | while
  | do
  | return
deriving DecidableEq, Repr

namespace StatementWord

def keyword : StatementWord → Keyword
  | .let => .let
  | .if => .if
  | .while => .while
  | .do => .do
  | .return => .return

def ofToken? : Token → Option StatementWord
  | .keyword .let => some .let
  | .keyword .if => some .if
  | .keyword .while => some .while
  | .keyword .do => some .do
  | .keyword .return => some .return
  | _ => none

theorem ofToken?_eq_some_iff {token : Token} {word : StatementWord} :
    ofToken? token = some word ↔ token = .keyword word.keyword := by
  constructor
  · intro found
    unfold ofToken? at found
    split at found <;> simp_all [StatementWord.keyword, eq_comm]
  · rintro rfl
    cases word <;> rfl

end StatementWord

end JackToVm
