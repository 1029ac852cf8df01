import ModuleLint.Bytes

/-!
The kinds of syntax nodes and their names.
-/

namespace ModuleLint

inductive NodeKind
  | root | script | block | exprStmt | empty | label
  | varDecl | letDecl | constDecl | name | destructuring | objectPattern | arrayPattern
  | defaultValue | rest
  | function | paramList | classDef | classMembers | memberFunction | memberField
  | returnStmt | throwStmt | ifStmt | whileStmt | doWhileStmt | forStmt | forInStmt | forOfStmt
  | switchStmt | caseClause | defaultClause | tryStmt | catchClause | breakStmt | continueStmt
  | assign | assignOp | conditional | binary | unary | update | comma | call | new | getProp
  | getElem
  | thisExpr | superExpr | stringLit | numberLit | trueLit | falseLit | nullLit | regexLit
  | templateLit | arrayLit | objectLit | stringKey | computedProp | spread
  deriving DecidableEq, Repr, Inhabited

namespace NodeKind

/-- Every kind, in declaration order. -/
def all : List NodeKind :=
  [.root, .script, .block, .exprStmt, .empty, .label, .varDecl, .letDecl, .constDecl, .name,
    .destructuring, .objectPattern, .arrayPattern, .defaultValue, .rest, .function, .paramList,
    .classDef, .classMembers, .memberFunction, .memberField, .returnStmt, .throwStmt, .ifStmt,
    .whileStmt, .doWhileStmt, .forStmt, .forInStmt, .forOfStmt, .switchStmt, .caseClause,
    .defaultClause, .tryStmt, .catchClause, .breakStmt, .continueStmt, .assign, .assignOp,
    .conditional, .binary, .unary, .update, .comma, .call, .new, .getProp, .getElem, .thisExpr,
    .superExpr, .stringLit, .numberLit, .trueLit, .falseLit, .nullLit, .regexLit, .templateLit,
    .arrayLit, .objectLit, .stringKey, .computedProp, .spread]

/-- The name of a kind. -/
def text : NodeKind → Bytes
  | .root => ascii "Root"
  | .script => ascii "Script"
  | .block => ascii "Block"
  | .exprStmt => ascii "ExprResult"
  | .empty => ascii "Empty"
  | .label => ascii "Label"
  | .varDecl => ascii "Var"
  | .letDecl => ascii "Let"
  | .constDecl => ascii "Const"
  | .name => ascii "Name"
  | .destructuring => ascii "DestructuringLhs"
  | .objectPattern => ascii "ObjectPattern"
  | .arrayPattern => ascii "ArrayPattern"
  | .defaultValue => ascii "DefaultValue"
  | .rest => ascii "Rest"
  | .function => ascii "Function"
  | .paramList => ascii "ParamList"
  | .classDef => ascii "Class"
  | .classMembers => ascii "ClassMembers"
  | .memberFunction => ascii "MemberFunctionDef"
  | .memberField => ascii "MemberFieldDef"
  | .returnStmt => ascii "Return"
  | .throwStmt => ascii "Throw"
  | .ifStmt => ascii "If"
  | .whileStmt => ascii "While"
  | .doWhileStmt => ascii "DoWhile"
  | .forStmt => ascii "For"
  | .forInStmt => ascii "ForIn"
  | .forOfStmt => ascii "ForOf"
  | .switchStmt => ascii "Switch"
  | .caseClause => ascii "Case"
  | .defaultClause => ascii "DefaultCase"
  | .tryStmt => ascii "Try"
  | .catchClause => ascii "Catch"
  | .breakStmt => ascii "Break"
  | .continueStmt => ascii "Continue"
  | .assign => ascii "Assign"
  | .assignOp => ascii "AssignOp"
  | .conditional => ascii "Hook"
  | .binary => ascii "Binary"
  | .unary => ascii "Unary"
  | .update => ascii "Update"
  | .comma => ascii "Comma"
  | .call => ascii "Call"
  | .new => ascii "New"
  | .getProp => ascii "GetProp"
  | .getElem => ascii "GetElem"
  | .thisExpr => ascii "This"
  | .superExpr => ascii "Super"
  | .stringLit => ascii "String"
  | .numberLit => ascii "Number"
  | .trueLit => ascii "True"
  | .falseLit => ascii "False"
  | .nullLit => ascii "Null"
  | .regexLit => ascii "Regex"
  | .templateLit => ascii "TemplateLit"
  | .arrayLit => ascii "ArrayLit"
  | .objectLit => ascii "ObjectLit"
  | .stringKey => ascii "StringKey"
  | .computedProp => ascii "ComputedProp"
  | .spread => ascii "Spread"

/-- The kind with a number, a byte, in declaration order. -/
def ofByte? (n : UInt8) : Option NodeKind := all[n.toNat]?

/-- The name of the kind with a number. -/
def textOfByte (n : UInt8) : Bytes := ((ofByte? n).map text).getD (ascii "Unknown")

/-- `var`, `let` and `const` declarations. -/
def isDeclaration (k : NodeKind) : Bool := k == .varDecl || k == .letDecl || k == .constDecl

/-- Kinds whose subtree runs in a function scope of its own. A field initializer runs once for each
instance. -/
def opensFunctionScope (k : NodeKind) : Bool := k == .function || k == .memberField

end NodeKind

end ModuleLint
