import ModuleLint.Bytes

/-!
The kinds of tokens and their display texts.

A keyword or punctuator is displayed as it is spelled, any other kind by a category name. Words are
recognised as keywords by a table of their own.
-/

namespace ModuleLint

inductive TokenKind
  /-- The end of the text; every token list closes with one. -/
  | eof
  /-- A token that could not be read. -/
  | error
  | identifier | number | string | template | regex
  | kwVar | kwLet | kwConst | kwFunction | kwReturn | kwIf | kwElse | kwFor | kwWhile | kwDo
  | kwBreak | kwContinue | kwThrow | kwTry | kwCatch | kwFinally | kwSwitch | kwCase | kwDefault
  | kwNew | kwDelete | kwTypeof | kwVoid | kwInstanceof | kwIn | kwThis | kwSuper | kwNull
  | kwTrue | kwFalse | kwClass | kwExtends
  | lparen | rparen | lbrace | rbrace | lbracket | rbracket | semi | comma | dot | ellipsis
  | question | colon | arrow
  | assign | plusAssign | minusAssign | starAssign | slashAssign | percentAssign | starStarAssign
  | shlAssign | shrAssign | ushrAssign | bitAndAssign | bitOrAssign | bitXorAssign
  | eq | ne | strictEq | strictNe | lt | gt | le | ge | plus | minus | star | starStar | slash
  | percent | plusPlus | minusMinus | shl | shr | ushr | bitAnd | bitOr | bitXor | bang | tilde
  | andAnd | orOr | questionQuestion
  deriving DecidableEq, Repr, Inhabited

namespace TokenKind

/-- Reserved words, in declaration order. -/
def keywords : List TokenKind :=
  [.kwVar, .kwLet, .kwConst, .kwFunction, .kwReturn, .kwIf, .kwElse, .kwFor, .kwWhile, .kwDo,
    .kwBreak, .kwContinue, .kwThrow, .kwTry, .kwCatch, .kwFinally, .kwSwitch, .kwCase,
    .kwDefault, .kwNew, .kwDelete, .kwTypeof, .kwVoid, .kwInstanceof, .kwIn, .kwThis, .kwSuper,
    .kwNull, .kwTrue, .kwFalse, .kwClass, .kwExtends]

/-- `=` and the compound assignment operators, in declaration order. -/
def assignmentOperators : List TokenKind :=
  [.assign, .plusAssign, .minusAssign, .starAssign, .slashAssign, .percentAssign,
    .starStarAssign, .shlAssign, .shrAssign, .ushrAssign, .bitAndAssign, .bitOrAssign,
    .bitXorAssign]

/-- Delimiters, assignment operators and all other operators, in declaration order. -/
def punctuators : List TokenKind :=
  ([.lparen, .rparen, .lbrace, .rbrace, .lbracket, .rbracket, .semi, .comma, .dot, .ellipsis,
    .question, .colon, .arrow] : List TokenKind) ++ assignmentOperators ++
  ([.eq, .ne, .strictEq, .strictNe, .lt, .gt, .le, .ge, .plus, .minus, .star, .starStar, .slash,
    .percent, .plusPlus, .minusMinus, .shl, .shr, .ushr, .bitAnd, .bitOr, .bitXor, .bang, .tilde,
    .andAnd, .orOr, .questionQuestion] : List TokenKind)

/-- Every kind, in declaration order. -/
def all : List TokenKind :=
  ([.eof, .error, .identifier, .number, .string, .template, .regex] : List TokenKind) ++
    keywords ++ punctuators

/-- The display text of a kind. -/
def text : TokenKind → Bytes
  | .eof => ascii "end of input"
  | .error => ascii "invalid token"
  | .identifier => ascii "identifier"
  | .number => ascii "number"
  | .string => ascii "string"
  | .template => ascii "template literal"
  | .regex => ascii "regular expression"
  | .kwVar => ascii "var"
  | .kwLet => ascii "let"
  | .kwConst => ascii "const"
  | .kwFunction => ascii "function"
  | .kwReturn => ascii "return"
  | .kwIf => ascii "if"
  | .kwElse => ascii "else"
  | .kwFor => ascii "for"
  | .kwWhile => ascii "while"
  | .kwDo => ascii "do"
  | .kwBreak => ascii "break"
  | .kwContinue => ascii "continue"
  | .kwThrow => ascii "throw"
  | .kwTry => ascii "try"
  | .kwCatch => ascii "catch"
  | .kwFinally => ascii "finally"
  | .kwSwitch => ascii "switch"
  | .kwCase => ascii "case"
  | .kwDefault => ascii "default"
  | .kwNew => ascii "new"
  | .kwDelete => ascii "delete"
  | .kwTypeof => ascii "typeof"
  | .kwVoid => ascii "void"
  | .kwInstanceof => ascii "instanceof"
  | .kwIn => ascii "in"
  | .kwThis => ascii "this"
  | .kwSuper => ascii "super"
  | .kwNull => ascii "null"
  | .kwTrue => ascii "true"
  | .kwFalse => ascii "false"
  | .kwClass => ascii "class"
  | .kwExtends => ascii "extends"
  | .lparen => ascii "("
  | .rparen => ascii ")"
  | .lbrace => ascii "\x7b"
  | .rbrace => ascii "\x7d"
  | .lbracket => ascii "["
  | .rbracket => ascii "]"
  | .semi => ascii ";"
  | .comma => ascii ","
  | .dot => ascii "."
  | .ellipsis => ascii "..."
  | .question => ascii "?"
  | .colon => ascii ":"
  | .arrow => ascii "=>"
  | .assign => ascii "="
  | .plusAssign => ascii "+="
  | .minusAssign => ascii "-="
  | .starAssign => ascii "*="
  | .slashAssign => ascii "/="
  | .percentAssign => ascii "%="
  | .starStarAssign => ascii "**="
  | .shlAssign => ascii "<<="
  | .shrAssign => ascii ">>="
  | .ushrAssign => ascii ">>>="
  | .bitAndAssign => ascii "&="
  | .bitOrAssign => ascii "|="
  | .bitXorAssign => ascii "^="
  | .eq => ascii "=="
  | .ne => ascii "!="
  | .strictEq => ascii "==="
  | .strictNe => ascii "!=="
  | .lt => ascii "<"
  | .gt => ascii ">"
  | .le => ascii "<="
  | .ge => ascii ">="
  | .plus => ascii "+"
  | .minus => ascii "-"
  | .star => ascii "*"
  | .starStar => ascii "**"
  | .slash => ascii "/"
  | .percent => ascii "%"
  | .plusPlus => ascii "++"
  | .minusMinus => ascii "--"
  | .shl => ascii "<<"
  | .shr => ascii ">>"
  | .ushr => ascii ">>>"
  | .bitAnd => ascii "&"
  | .bitOr => ascii "|"
  | .bitXor => ascii "^"
  | .bang => ascii "!"
  | .tilde => ascii "~"
  | .andAnd => ascii "&&"
  | .orOr => ascii "||"
  | .questionQuestion => ascii "??"

def isKeyword (k : TokenKind) : Bool := keywords.contains k

def isAssignmentOperator (k : TokenKind) : Bool := assignmentOperators.contains k

/-- The kind with a number, a byte, in declaration order. -/
def ofByte? (n : UInt8) : Option TokenKind := all[n.toNat]?

/-- The display text of the kind with a number. -/
def textOfByte (n : UInt8) : Bytes := ((ofByte? n).map text).getD (ascii "unknown")

/-- The words that are keywords: those of declarations, of control flow, of operators and of
values. -/
def keywordTable : List (Bytes × TokenKind) :=
  [(ascii "var", .kwVar), (ascii "let", .kwLet), (ascii "const", .kwConst),
    (ascii "function", .kwFunction), (ascii "class", .kwClass), (ascii "extends", .kwExtends),
    (ascii "return", .kwReturn), (ascii "if", .kwIf), (ascii "else", .kwElse),
    (ascii "for", .kwFor), (ascii "while", .kwWhile), (ascii "do", .kwDo),
    (ascii "break", .kwBreak), (ascii "continue", .kwContinue), (ascii "throw", .kwThrow),
    (ascii "try", .kwTry), (ascii "catch", .kwCatch), (ascii "finally", .kwFinally),
    (ascii "switch", .kwSwitch), (ascii "case", .kwCase), (ascii "default", .kwDefault),
    (ascii "new", .kwNew), (ascii "delete", .kwDelete), (ascii "typeof", .kwTypeof),
    (ascii "void", .kwVoid), (ascii "instanceof", .kwInstanceof), (ascii "in", .kwIn),
    (ascii "this", .kwThis), (ascii "super", .kwSuper), (ascii "null", .kwNull),
    (ascii "true", .kwTrue), (ascii "false", .kwFalse)]

/-- The keyword that a word is. -/
def keyword? (word : Bytes) : Option TokenKind := keywordTable.lookup word

end TokenKind

end ModuleLint
