/-! The stable codes of errors, each with a short and a long explanation. The letter in a code
tells what reports it: `L` reading tokens, `P` reading the grammar, `C` compiling, `R` running.
-/

namespace StackScript

/-- A stable code and what it means. -/
structure CodeEntry where
  code : String
  /-- One line, for lists. -/
  short : String
  /-- The lines of the full explanation. -/
  lines : List String
deriving DecidableEq, Repr, Inhabited

namespace CodeEntry

/-- The full explanation, every line ended. -/
def long (entry : CodeEntry) : String :=
  String.join (entry.lines.map (· ++ "\n"))

/-- What reading tokens can report. -/
def lexicalCodes : List CodeEntry := [
  { code := "SPD-L001"
    short := "unexpected input"
    lines := [
      "## SPD-L001: unexpected input",
      "",
      "The lexer met text that starts no token. Common causes are single-quoted",
      "strings, an unterminated string, or `&`/`|` written alone.",
      "",
      "    let s = 'hi';      // use \"hi\"",
      "    if (a & b) ...     // use &&"
    ] }
]

/-- What reading the grammar can report. -/
def syntacticCodes : List CodeEntry := [
  { code := "SPD-P001"
    short := "unexpected token"
    lines := [
      "## SPD-P001: unexpected token",
      "",
      "A specific token was required here, usually a `;`, `)` or `\x7d`.",
      "",
      "    let x = 1          // missing ;",
      "    $emit(x;           // missing )"
    ] },
  { code := "SPD-P002"
    short := "unexpected end of input"
    lines := [
      "## SPD-P002: unexpected end of input",
      "",
      "The source ended while a token was still expected, for example an",
      "unclosed block or a statement without its trailing `;`."
    ] },
  { code := "SPD-P003"
    short := "expected identifier"
    lines := [
      "## SPD-P003: expected identifier",
      "",
      "`let` and function parameters need a name: letters, digits and `_`,",
      "not starting with a digit, optionally prefixed with `$`.",
      "",
      "    let 1x = 2;        // names cannot start with a digit"
    ] },
  { code := "SPD-P004"
    short := "expected identifier, got end of input"
    lines := [
      "## SPD-P004: expected identifier, got end of input",
      "",
      "The source ended right after `let` or inside a parameter list."
    ] },
  { code := "SPD-P005"
    short := "expected statement"
    lines := [
      "## SPD-P005: expected statement",
      "",
      "The source ended where a statement was required, such as the branch of",
      "an `if` or `else`.",
      "",
      "    if (x)             // needs a statement or block"
    ] },
  { code := "SPD-P006"
    short := "expected expression"
    lines := [
      "## SPD-P006: expected expression",
      "",
      "An operand is missing. There are no unary operators, so `-1` must be",
      "written `0 - 1`.",
      "",
      "    let y = -1;",
      "    f(1, );"
    ] },
  { code := "SPD-P007"
    short := "expected expression, got end of input"
    lines := [
      "## SPD-P007: expected expression, got end of input",
      "",
      "The source ended in the middle of an expression."
    ] },
  { code := "SPD-P008"
    short := "duplicate parameter"
    lines := [
      "## SPD-P008: duplicate parameter",
      "",
      "Each parameter of a function must have a distinct name.",
      "",
      "    function(a, a) \x7b return a; \x7d"
    ] },
  { code := "SPD-P009"
    short := "nesting too deep"
    lines := [
      "## SPD-P009: nesting too deep",
      "",
      "Blocks, `if` statements, parentheses and chains of operators can nest at",
      "most 128 levels. Each further operand of a chain like `a + b + c` counts",
      "as one level. Split the expression with `let` or move code into a",
      "function."
    ] }
]

/-- What compiling can report. -/
def compileTimeCodes : List CodeEntry := [
  { code := "SPD-C001"
    short := "scope underflow (compiler bug)"
    lines := [
      "## SPD-C001: scope underflow",
      "",
      "The code generator closed more scopes than it opened. This is a",
      "compiler bug, not a problem with the program."
    ] },
  { code := "SPD-C002"
    short := "too many locals"
    lines := [
      "## SPD-C002: too many locals",
      "",
      "Local slots are one byte, so a function body can have at most 256",
      "parameters and block locals alive at once. Move values into globals or",
      "split the function."
    ] },
  { code := "SPD-C003"
    short := "too many globals"
    lines := [
      "## SPD-C003: too many globals",
      "",
      "Global slots are one byte and slots 0-2 are reserved, so a program can",
      "name at most 253 distinct globals (including ones only ever read)."
    ] },
  { code := "SPD-C004"
    short := "too many functions"
    lines := [
      "## SPD-C004: too many functions",
      "",
      "Function references are one byte and index 0 is the main code, so a",
      "program can contain at most 255 `function` literals."
    ] },
  { code := "SPD-C005"
    short := "too many string literals"
    lines := [
      "## SPD-C005: too many string literals",
      "",
      "String references are two bytes; at most 65536 distinct string",
      "literals fit in one program. Identical literals share an entry."
    ] },
  { code := "SPD-C006"
    short := "too many call arguments"
    lines := [
      "## SPD-C006: too many call arguments",
      "",
      "`CALL` carries its argument count in one byte; at most 255 arguments."
    ] },
  { code := "SPD-C007"
    short := "too many parameters"
    lines := [
      "## SPD-C007: too many parameters",
      "",
      "A function's arity is one byte; at most 255 parameters."
    ] },
  { code := "SPD-C008"
    short := "jump too large"
    lines := [
      "## SPD-C008: jump too large",
      "",
      "Jump offsets are 16-bit, so an `if` branch or the right side of `&&`/`||`",
      "must compile to fewer than 65536 bytes. Move the body into a function."
    ] },
  { code := "SPD-C009"
    short := "LONG literal out of range"
    lines := [
      "## SPD-C009: LONG literal out of range",
      "",
      "A literal with the `l` suffix must fit in a signed 64-bit integer",
      "(at most 9223372036854775807)."
    ] },
  { code := "SPD-C010"
    short := "invalid numeric literal"
    lines := [
      "## SPD-C010: invalid numeric literal",
      "",
      "LONG literals must be whole numbers: `1.5l` is rejected."
    ] }
]

/-- What running can report. -/
def runTimeCodes : List CodeEntry := [
  { code := "SPD-R001"
    short := "global not initialized"
    lines := [
      "## SPD-R001: global not initialized",
      "",
      "A global was read before any value was stored in it. Globals may be",
      "mentioned before their `let` (that compiles), but the `let` must run",
      "first.",
      "",
      "    $emit(x);          // fails at runtime",
      "    let x = 1;"
    ] },
  { code := "SPD-R002"
    short := "call of a non-function"
    lines := [
      "## SPD-R002: call of a non-function",
      "",
      "Only `function` values and built-ins can be called.",
      "",
      "    let n = 3;",
      "    n();"
    ] },
  { code := "SPD-R003"
    short := "wrong number of arguments"
    lines := [
      "## SPD-R003: wrong number of arguments",
      "",
      "A function was called with a different number of arguments than it",
      "declares parameters. Pass `null` explicitly for unused ones."
    ] },
  { code := "SPD-R004"
    short := "operand type mismatch"
    lines := [
      "## SPD-R004: operand type mismatch",
      "",
      "Arithmetic and comparison operators, `==` and `!=` included, accept",
      "NUMBER operands only. LONG, STRING and BOOLEAN values are rejected.",
      "",
      "    \"a\" + \"b\";",
      "    1l + 2l;"
    ] },
  { code := "SPD-R005"
    short := "malformed bytecode"
    lines := [
      "## SPD-R005: malformed bytecode",
      "",
      "The engine decoded an unknown opcode or type tag, or an instruction ran",
      "past the end of its buffer. Bytecode from the compiler never does this."
    ] },
  { code := "SPD-R006"
    short := "dangling table reference"
    lines := [
      "## SPD-R006: dangling table reference",
      "",
      "An instruction referred to a function or string table entry that does",
      "not exist. Bytecode from the compiler never does this."
    ] },
  { code := "SPD-R007"
    short := "stack underflow"
    lines := [
      "## SPD-R007: stack underflow",
      "",
      "An instruction needed more operands than the stack held, or a local slot",
      "pointed past the top. Bytecode from the compiler never does this."
    ] },
  { code := "SPD-R008"
    short := "resource limit exceeded"
    lines := [
      "## SPD-R008: resource limit exceeded",
      "",
      "The operand stack or call depth passed its limit, usually because of",
      "unbounded recursion.",
      "",
      "    let f = function() \x7b return f(); \x7d;",
      "    f();"
    ] },
  { code := "SPD-R009"
    short := "function ran off its end"
    lines := [
      "## SPD-R009: function ran off its end",
      "",
      "Execution reached the end of a function body without `RETURN`. The",
      "compiler always terminates bodies, so this means hand-built bytecode."
    ] },
  { code := "SPD-R010"
    short := "built-in failed"
    lines := [
      "## SPD-R010: built-in failed",
      "",
      "A built-in such as `$typeof` rejected its arguments, or `$emit` could not",
      "write its output."
    ] }
]

/-- Every code, in the order in which they are listed. -/
def all : List CodeEntry :=
  lexicalCodes ++ syntacticCodes ++ compileTimeCodes ++ runTimeCodes

/-- The entry of a code. -/
def find? (code : String) : Option CodeEntry :=
  all.find? fun entry => entry.code = code

/-- The upper case of a character that can be part of a code. Among all characters only the
ASCII letters and the long s have an upper case that can.
-/
def upper (c : Char) : Char :=
  if c = 'ſ' then 'S' else c.toUpper

/-- The entry of a code that may be written in lower case. -/
def findAnyCase? (code : String) : Option CodeEntry :=
  find? (code.map upper)

end CodeEntry

end StackScript
