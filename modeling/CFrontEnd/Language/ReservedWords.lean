import CFrontEnd.Token.Keyword
import CFrontEnd.Language.Dialect

/-!
Which spellings are reserved words in which dialect of C.
-/

namespace CFrontEnd

inductive Availability
  /-- In the given standard and in all later ones. -/
  | since (standard : Standard)
  | gnuOnly
  /-- As `since`, and in every GNU dialect. -/
  | sinceOrGnu (standard : Standard)
  deriving DecidableEq, Repr

def Availability.allows (availability : Availability) (dialect : Dialect) : Bool :=
  match availability with
  | .since standard => standard ≤ dialect.standard
  | .gnuOnly => dialect.gnu
  | .sinceOrGnu standard => dialect.gnu || standard ≤ dialect.standard

def reservedWords : List (String × Keyword × Availability) :=
  [("auto", .autoWord, .since .c89),
    ("break", .breakWord, .since .c89),
    ("case", .caseWord, .since .c89),
    ("char", .charWord, .since .c89),
    ("const", .constWord, .since .c89),
    ("continue", .continueWord, .since .c89),
    ("default", .defaultWord, .since .c89),
    ("do", .doWord, .since .c89),
    ("double", .doubleWord, .since .c89),
    ("else", .elseWord, .since .c89),
    ("enum", .enumWord, .since .c89),
    ("extern", .externWord, .since .c89),
    ("float", .floatWord, .since .c89),
    ("for", .forWord, .since .c89),
    ("goto", .gotoWord, .since .c89),
    ("if", .ifWord, .since .c89),
    ("int", .intWord, .since .c89),
    ("long", .longWord, .since .c89),
    ("register", .registerWord, .since .c89),
    ("return", .returnWord, .since .c89),
    ("short", .shortWord, .since .c89),
    ("signed", .signedWord, .since .c89),
    ("sizeof", .sizeofWord, .since .c89),
    ("static", .staticWord, .since .c89),
    ("struct", .structWord, .since .c89),
    ("switch", .switchWord, .since .c89),
    ("typedef", .typedefWord, .since .c89),
    ("union", .unionWord, .since .c89),
    ("unsigned", .unsignedWord, .since .c89),
    ("void", .voidWord, .since .c89),
    ("volatile", .volatileWord, .since .c89),
    ("while", .whileWord, .since .c89),
    ("inline", .inlineWord, .sinceOrGnu .c99),
    ("restrict", .restrictWord, .since .c99),
    ("_Bool", .boolWord, .since .c99),
    ("_Complex", .complexWord, .since .c99),
    ("_Imaginary", .imaginaryWord, .since .c99),
    ("_Alignas", .alignasWord, .since .c11),
    ("_Alignof", .alignofWord, .since .c11),
    ("_Atomic", .atomicWord, .since .c11),
    ("_Generic", .genericWord, .since .c11),
    ("_Noreturn", .noreturnWord, .since .c11),
    ("_Static_assert", .staticAssertWord, .since .c11),
    ("_Thread_local", .threadLocalWord, .since .c11),
    ("alignas", .alignasWord, .since .c23),
    ("alignof", .alignofWord, .since .c23),
    ("bool", .boolWord, .since .c23),
    ("constexpr", .constexprWord, .since .c23),
    ("false", .falseWord, .since .c23),
    ("true", .trueWord, .since .c23),
    ("nullptr", .nullptrWord, .since .c23),
    ("static_assert", .staticAssertWord, .since .c23),
    ("thread_local", .threadLocalWord, .since .c23),
    ("typeof", .typeofWord, .sinceOrGnu .c23),
    ("typeof_unqual", .typeofUnqualWord, .since .c23),
    ("_BitInt", .bitIntWord, .since .c23),
    ("_Decimal32", .decimal32Word, .since .c23),
    ("_Decimal64", .decimal64Word, .since .c23),
    ("_Decimal128", .decimal128Word, .since .c23),
    ("_Float16", .float16Word, .sinceOrGnu .c23),
    ("_Float32", .float32Word, .sinceOrGnu .c23),
    ("_Float64", .float64Word, .sinceOrGnu .c23),
    ("_Float128", .float128Word, .sinceOrGnu .c23),
    ("_Float32x", .float32xWord, .sinceOrGnu .c23),
    ("_Float64x", .float64xWord, .sinceOrGnu .c23),
    ("__attribute__", .attributeWord, .gnuOnly),
    ("__attribute", .attributeWord, .gnuOnly),
    ("asm", .asmWord, .gnuOnly),
    ("__asm__", .asmWord, .gnuOnly),
    ("__asm", .asmWord, .gnuOnly),
    ("__extension__", .extensionWord, .gnuOnly),
    ("__typeof__", .typeofWord, .gnuOnly),
    ("__typeof", .typeofWord, .gnuOnly),
    ("__typeof_unqual__", .typeofUnqualWord, .gnuOnly),
    ("__inline__", .inlineWord, .gnuOnly),
    ("__inline", .inlineWord, .gnuOnly),
    ("__restrict__", .restrictWord, .gnuOnly),
    ("__restrict", .restrictWord, .gnuOnly),
    ("__const__", .constWord, .gnuOnly),
    ("__const", .constWord, .gnuOnly),
    ("__volatile__", .volatileWord, .gnuOnly),
    ("__volatile", .volatileWord, .gnuOnly),
    ("__signed__", .signedWord, .gnuOnly),
    ("__signed", .signedWord, .gnuOnly),
    ("__alignof__", .alignofWord, .gnuOnly),
    ("__alignof", .alignofWord, .gnuOnly),
    ("__complex__", .complexWord, .gnuOnly),
    ("__thread", .threadLocalWord, .gnuOnly),
    ("__label__", .labelWord, .gnuOnly),
    ("__int128", .int128Word, .gnuOnly),
    ("__auto_type", .autoTypeWord, .gnuOnly),
    ("__builtin_va_arg", .builtinVaArgWord, .gnuOnly),
    ("__builtin_offsetof", .builtinOffsetofWord, .gnuOnly),
    ("__builtin_types_compatible_p", .builtinTypesCompatiblePWord, .gnuOnly)]

/-- The word a spelling stands for in the largest dialect. -/
def keywordSpelled? (spelling : String) : Option Keyword :=
  (reservedWords.find? fun entry => entry.1 == spelling).map fun entry => entry.2.1

/-- The spellings that are reserved in `dialect`. -/
def reservedIn (dialect : Dialect) : List (String × Keyword) :=
  (reservedWords.filter fun entry => entry.2.2.allows dialect).map fun entry => (entry.1, entry.2.1)

end CFrontEnd
