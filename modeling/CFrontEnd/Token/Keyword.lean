/-!
The reserved words of C from C89 to C23 and of the GNU dialects. Alternative spellings such as
`__inline__` belong to the same word; each word has one canonical spelling.
-/

namespace CFrontEnd

inductive Keyword
  | autoWord
  | breakWord
  | caseWord
  | charWord
  | constWord
  | continueWord
  | defaultWord
  | doWord
  | doubleWord
  | elseWord
  | enumWord
  | externWord
  | floatWord
  | forWord
  | gotoWord
  | ifWord
  | intWord
  | longWord
  | registerWord
  | returnWord
  | shortWord
  | signedWord
  | sizeofWord
  | staticWord
  | structWord
  | switchWord
  | typedefWord
  | unionWord
  | unsignedWord
  | voidWord
  | volatileWord
  | whileWord
  | inlineWord
  | restrictWord
  | boolWord
  | complexWord
  | imaginaryWord
  | alignasWord
  | alignofWord
  | atomicWord
  | genericWord
  | noreturnWord
  | staticAssertWord
  | threadLocalWord
  | constexprWord
  | falseWord
  | trueWord
  | nullptrWord
  | typeofWord
  | typeofUnqualWord
  | bitIntWord
  | decimal32Word
  | decimal64Word
  | decimal128Word
  | float16Word
  | float32Word
  | float64Word
  | float128Word
  | float32xWord
  | float64xWord
  | attributeWord
  | asmWord
  | extensionWord
  | labelWord
  | int128Word
  | autoTypeWord
  | builtinVaArgWord
  | builtinOffsetofWord
  | builtinTypesCompatiblePWord
  deriving DecidableEq, Repr

namespace Keyword

/-- The spelling that stands for the word wherever it was written differently. -/
def spelling : Keyword → String
  | .autoWord => "auto"
  | .breakWord => "break"
  | .caseWord => "case"
  | .charWord => "char"
  | .constWord => "const"
  | .continueWord => "continue"
  | .defaultWord => "default"
  | .doWord => "do"
  | .doubleWord => "double"
  | .elseWord => "else"
  | .enumWord => "enum"
  | .externWord => "extern"
  | .floatWord => "float"
  | .forWord => "for"
  | .gotoWord => "goto"
  | .ifWord => "if"
  | .intWord => "int"
  | .longWord => "long"
  | .registerWord => "register"
  | .returnWord => "return"
  | .shortWord => "short"
  | .signedWord => "signed"
  | .sizeofWord => "sizeof"
  | .staticWord => "static"
  | .structWord => "struct"
  | .switchWord => "switch"
  | .typedefWord => "typedef"
  | .unionWord => "union"
  | .unsignedWord => "unsigned"
  | .voidWord => "void"
  | .volatileWord => "volatile"
  | .whileWord => "while"
  | .inlineWord => "inline"
  | .restrictWord => "restrict"
  | .boolWord => "_Bool"
  | .complexWord => "_Complex"
  | .imaginaryWord => "_Imaginary"
  | .alignasWord => "_Alignas"
  | .alignofWord => "_Alignof"
  | .atomicWord => "_Atomic"
  | .genericWord => "_Generic"
  | .noreturnWord => "_Noreturn"
  | .staticAssertWord => "_Static_assert"
  | .threadLocalWord => "_Thread_local"
  | .constexprWord => "constexpr"
  | .falseWord => "false"
  | .trueWord => "true"
  | .nullptrWord => "nullptr"
  | .typeofWord => "typeof"
  | .typeofUnqualWord => "typeof_unqual"
  | .bitIntWord => "_BitInt"
  | .decimal32Word => "_Decimal32"
  | .decimal64Word => "_Decimal64"
  | .decimal128Word => "_Decimal128"
  | .float16Word => "_Float16"
  | .float32Word => "_Float32"
  | .float64Word => "_Float64"
  | .float128Word => "_Float128"
  | .float32xWord => "_Float32x"
  | .float64xWord => "_Float64x"
  | .attributeWord => "__attribute__"
  | .asmWord => "__asm__"
  | .extensionWord => "__extension__"
  | .labelWord => "__label__"
  | .int128Word => "__int128"
  | .autoTypeWord => "__auto_type"
  | .builtinVaArgWord => "__builtin_va_arg"
  | .builtinOffsetofWord => "__builtin_offsetof"
  | .builtinTypesCompatiblePWord => "__builtin_types_compatible_p"

/-- The word's name in token listings. -/
def label : Keyword → String
  | .autoWord => "Auto"
  | .breakWord => "Break"
  | .caseWord => "Case"
  | .charWord => "Char"
  | .constWord => "Const"
  | .continueWord => "Continue"
  | .defaultWord => "Default"
  | .doWord => "Do"
  | .doubleWord => "Double"
  | .elseWord => "Else"
  | .enumWord => "Enum"
  | .externWord => "Extern"
  | .floatWord => "Float"
  | .forWord => "For"
  | .gotoWord => "Goto"
  | .ifWord => "If"
  | .intWord => "Int"
  | .longWord => "Long"
  | .registerWord => "Register"
  | .returnWord => "Return"
  | .shortWord => "Short"
  | .signedWord => "Signed"
  | .sizeofWord => "Sizeof"
  | .staticWord => "Static"
  | .structWord => "Struct"
  | .switchWord => "Switch"
  | .typedefWord => "Typedef"
  | .unionWord => "Union"
  | .unsignedWord => "Unsigned"
  | .voidWord => "Void"
  | .volatileWord => "Volatile"
  | .whileWord => "While"
  | .inlineWord => "Inline"
  | .restrictWord => "Restrict"
  | .boolWord => "Bool"
  | .complexWord => "Complex"
  | .imaginaryWord => "Imaginary"
  | .alignasWord => "Alignas"
  | .alignofWord => "Alignof"
  | .atomicWord => "Atomic"
  | .genericWord => "Generic"
  | .noreturnWord => "Noreturn"
  | .staticAssertWord => "StaticAssert"
  | .threadLocalWord => "ThreadLocal"
  | .constexprWord => "Constexpr"
  | .falseWord => "False"
  | .trueWord => "True"
  | .nullptrWord => "Nullptr"
  | .typeofWord => "Typeof"
  | .typeofUnqualWord => "TypeofUnqual"
  | .bitIntWord => "BitInt"
  | .decimal32Word => "Decimal32"
  | .decimal64Word => "Decimal64"
  | .decimal128Word => "Decimal128"
  | .float16Word => "Float16"
  | .float32Word => "Float32"
  | .float64Word => "Float64"
  | .float128Word => "Float128"
  | .float32xWord => "Float32x"
  | .float64xWord => "Float64x"
  | .attributeWord => "Attribute"
  | .asmWord => "Asm"
  | .extensionWord => "Extension"
  | .labelWord => "Label"
  | .int128Word => "Int128"
  | .autoTypeWord => "AutoType"
  | .builtinVaArgWord => "BuiltinVaArg"
  | .builtinOffsetofWord => "BuiltinOffsetof"
  | .builtinTypesCompatiblePWord => "BuiltinTypesCompatibleP"

end Keyword

end CFrontEnd
