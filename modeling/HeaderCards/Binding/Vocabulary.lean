import HeaderCards.Family
import HeaderCards.Prototype

/-!
# Binding types

Each family has one closed table from the C types of its arguments to binding types and
one for its return types. A C type outside the table has no binding type; it is never
guessed at.
-/

namespace HeaderCards

/-- The machine types a scalar or the target of a pointer can have. -/
inductive Scalar where
  | int32
  | float32
  | float64
  | complex32
  | complex64
  | character
  | untyped
  deriving DecidableEq, Repr

/-- The name of the machine type in a binding. -/
def Scalar.name : Scalar → Text
  | .int32 => "i32"
  | .float32 => "f32"
  | .float64 => "f64"
  | .complex32 => "Complex32"
  | .complex64 => "Complex64"
  | .character => "c_char"
  | .untyped => "c_void"

/-- The types a binding gives to arguments and return values. -/
inductive BindingType where
  | scalar (s : Scalar)
  | pointer (target : Scalar)
  | layout
  | matrixLayout
  | transpose
  | uplo
  | diag
  | side
  | unit
  | size
  | info
  deriving DecidableEq, Repr

/-- The name of the type in a binding. -/
def BindingType.name : BindingType → Text
  | .scalar s => s.name
  | .pointer s => "*mut " ++ s.name
  | .layout => "Layout"
  | .matrixLayout => "MatrixLayout"
  | .transpose => "Transpose"
  | .uplo => "Uplo"
  | .diag => "Diag"
  | .side => "Side"
  | .unit => "()"
  | .size => "usize"
  | .info => "LapackInfo"

namespace Family

/-- The C types an argument of the family can have. -/
def argumentTypes : Family → List (Text × BindingType)
  | .blas =>
    [("enum CBLAS_ORDER", .layout),
     ("CBLAS_ORDER", .layout),
     ("CBLAS_LAYOUT", .layout),
     ("enum CBLAS_TRANSPOSE", .transpose),
     ("CBLAS_TRANSPOSE", .transpose),
     ("enum CBLAS_UPLO", .uplo),
     ("CBLAS_UPLO", .uplo),
     ("enum CBLAS_DIAG", .diag),
     ("CBLAS_DIAG", .diag),
     ("enum CBLAS_SIDE", .side),
     ("CBLAS_SIDE", .side),
     ("blasint", .scalar .int32),
     ("blasint*", .pointer .int32),
     ("int", .scalar .int32),
     ("int*", .pointer .int32),
     ("float", .scalar .float32),
     ("float*", .pointer .float32),
     ("double", .scalar .float64),
     ("double*", .pointer .float64),
     ("void*", .pointer .untyped),
     ("openblas_complex_float", .scalar .complex32),
     ("openblas_complex_float*", .pointer .complex32),
     ("openblas_complex_double", .scalar .complex64),
     ("openblas_complex_double*", .pointer .complex64)]
  | .lapack =>
    [("int", .scalar .int32),
     ("lapack_int", .scalar .int32),
     ("lapack_int*", .pointer .int32),
     ("lapack_logical", .scalar .int32),
     ("lapack_logical*", .pointer .int32),
     ("float", .scalar .float32),
     ("float*", .pointer .float32),
     ("double", .scalar .float64),
     ("double*", .pointer .float64),
     ("lapack_complex_float", .scalar .complex32),
     ("lapack_complex_float*", .pointer .complex32),
     ("lapack_complex_double", .scalar .complex64),
     ("lapack_complex_double*", .pointer .complex64),
     ("char", .scalar .character),
     ("char*", .pointer .character)]

/-- The C types a function of the family can return. -/
def returnTypes : Family → List (Text × BindingType)
  | .blas =>
    [("void", .unit),
     ("float", .scalar .float32),
     ("double", .scalar .float64),
     ("openblas_complex_float", .scalar .complex32),
     ("openblas_complex_double", .scalar .complex64),
     ("CBLAS_INDEX", .size),
     ("size_t", .size)]
  | .lapack => [("lapack_int", .info)]

end Family

/-- What carries a C type. -/
inductive TypeBearer where
  | argument (name : Text)
  | result (function : Text)
  deriving DecidableEq, Repr

/-- A C type outside the family's table, and what carries it. -/
structure UnknownType where
  type : Text
  bearer : TypeBearer
  deriving DecidableEq, Repr

/-- The bearer as a message names it. -/
def TypeBearer.describe : TypeBearer → Text
  | .argument name => name
  | .result function => "return value of " ++ function

/-- The message for a type outside the table. -/
def UnknownType.message (e : UnknownType) : Text :=
  "unknown type `" ++ e.type ++ "` for " ++ e.bearer.describe

namespace Family

/-- The binding type of an argument. The layout selector of the solvers is declared as a
plain `int` and is told by its name. -/
def argumentType (f : Family) (a : Argument) : Except UnknownType BindingType :=
  if f = .lapack ∧ a.type = "int" ∧ a.name = "matrix_layout" then .ok .matrixLayout
  else
    match f.argumentTypes.lookup a.type with
    | some b => .ok b
    | none => .error ⟨a.type, .argument a.name⟩

/-- The binding type of what a function returns. -/
def returnType (f : Family) (type function : Text) : Except UnknownType BindingType :=
  match f.returnTypes.lookup type with
  | some b => .ok b
  | none => .error ⟨type, .result function⟩

end Family

end HeaderCards
