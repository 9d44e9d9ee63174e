set_option autoImplicit false

namespace FormulaCalculator.Symbolic.Vocabulary

def functions : List String :=
  ["sin", "cos", "tan", "cot", "sec", "csc", "sinc", "asin", "acos", "atan", "acot", "asec", "acsc",
    "atan2", "sinh", "cosh", "tanh", "coth", "sech", "csch", "asinh", "acosh", "atanh", "acoth",
    "asech", "acsch", "log", "ln", "LambertW", "re", "im", "arg", "sign", "conjugate", "Abs",
    "adjoint", "transpose", "floor", "ceiling", "frac", "Max", "Min", "max", "min", "Mod",
    "Heaviside", "DiracDelta", "SingularityFunction", "KroneckerDelta", "LeviCivita", "gamma",
    "lowergamma", "uppergamma", "polygamma", "loggamma", "digamma", "trigamma", "multigamma",
    "beta", "betainc", "zeta", "dirichlet_eta", "polylog", "lerchphi", "stieltjes", "Ei", "expint",
    "li", "Li", "Si", "Ci", "Shi", "Chi", "erf", "erfc", "erfi", "erf2", "erfinv", "erfcinv",
    "erf2inv", "fresnels", "fresnelc", "besselj", "bessely", "besseli", "besselk", "hankel1",
    "hankel2", "jn", "yn", "hn1", "hn2", "airyai", "airybi", "airyaiprime", "airybiprime",
    "marcumq", "hyper", "meijerg", "legendre", "assoc_legendre", "hermite", "chebyshevt",
    "chebyshevu", "laguerre", "assoc_laguerre", "gegenbauer", "jacobi", "Ynm", "Znm", "elliptic_k",
    "elliptic_f", "elliptic_e", "elliptic_pi", "mathieus", "mathieuc", "factorial", "factorial2",
    "rf", "ff", "RisingFactorial", "FallingFactorial", "binomial", "subfactorial", "carmichael",
    "fibonacci", "lucas", "tribonacci", "motzkin", "harmonic", "bernoulli", "bell", "euler",
    "catalan", "genocchi", "partition", "divisor_sigma", "totient", "mobius", "primenu",
    "primeomega", "And", "Or", "Not", "Xor", "Nand", "Nor", "Implies", "Equivalent", "ITE",
    "Piecewise", "Function", "WildFunction", "Rem", "polar_lift", "periodic_argument",
    "principal_branch", "appellf1", "hermite_prob", "andre", "betainc_regularized", "mathieusprime",
    "mathieucprime", "riemann_xi", "chebyshevt_root", "chebyshevu_root"]

def structures : List String :=
  ["O", "Order", "Eq", "Ne", "Lt", "Le", "Gt", "Ge", "Rel", "Equality", "Unequality", "LessThan",
    "StrictLessThan", "GreaterThan", "StrictGreaterThan", "Add", "Mul", "Pow", "Basic", "Atom",
    "Expr", "AtomicExpr", "Symbol", "Dummy", "Wild", "Number", "Float", "Integer", "Rational",
    "RealNumber", "NumberSymbol", "AlgebraicNumber", "Derivative", "Subs", "Integral", "Limit",
    "Sum", "Product", "Matrix", "MutableMatrix", "ImmutableMatrix", "SparseMatrix", "MatrixBase",
    "MatrixSymbol", "MatrixExpr", "MatAdd", "MatMul", "MatPow", "Identity", "ZeroMatrix",
    "OneMatrix", "BlockMatrix", "Inverse", "Transpose", "Trace", "Adjoint", "Determinant",
    "HadamardProduct", "DiagonalMatrix", "Permanent", "Poly", "PurePoly", "GroebnerBasis",
    "RootSum", "Set", "Interval", "Union", "Intersection", "Complement", "SymmetricDifference",
    "FiniteSet", "ProductSet", "ConditionSet", "ImageSet", "Range", "ComplexRegion", "Contains",
    "PowerSet", "Point", "Point2D", "Point3D", "Line", "Line2D", "Line3D", "Ray", "Ray2D", "Ray3D",
    "Segment", "Segment2D", "Segment3D", "Circle", "Ellipse", "Polygon", "RegularPolygon",
    "Triangle", "Plane", "Curve", "Parabola", "Tuple", "Dict", "Array", "NDimArray", "IndexedBase",
    "Indexed", "Idx", "Lambda", "FunctionClass", "AccumBounds", "FF", "GF", "Quaternion",
    "IntegerRing", "RationalField", "RealField", "ComplexField", "AppliedPredicate", "Sieve",
    "EPath", "DeferredVector", "Domain", "FiniteField", "AlgebraicField", "PolynomialRing",
    "FractionField", "Monomial", "UnevaluatedExpr", "vectorize", "HadamardPower",
    "KroneckerProduct", "DotProduct", "PermutationMatrix", "Ordinal", "OmegaPower", "SeqPer",
    "SeqFormula", "SeqAdd", "SeqMul", "RootOf", "CRootOf", "ComplexRootOf", "PoleError"]

def procedures : List String :=
  ["sqrt", "N", "E1", "cbrt", "root", "real_root", "solve", "solveset", "linsolve", "nonlinsolve",
    "nsolve", "dsolve", "rsolve", "pdsolve", "diff", "integrate", "limit", "series", "summation",
    "product", "simplify", "expand", "factor", "collect", "cancel", "apart", "together", "trigsimp",
    "powsimp", "radsimp", "ratsimp", "nsimplify", "logcombine", "powdenest", "gammasimp",
    "combsimp", "symbols", "var", "test", "div", "rem", "quo", "pdiv", "prem", "pquo", "exquo",
    "gcd", "lcm", "gcdex", "factor_list", "sqf", "sqf_list", "sqf_part", "invert", "resultant",
    "discriminant", "subresultants", "groebner", "roots", "real_roots", "nroots", "degree", "poly",
    "LC", "LM", "LT", "content", "primitive", "compose", "decompose", "monic", "reduced",
    "interpolate", "horner", "det", "eye", "zeros", "ones", "diag", "hessian", "trace", "isprime",
    "prime", "primepi", "primerange", "primefactors", "factorint", "divisors", "nextprime",
    "prevprime", "randprime", "perfect_power", "multiplicity", "npartitions", "count_ops", "cse",
    "lambdify", "plot", "textplot", "refine", "ask", "satisfiable", "residue", "singularities",
    "maximum", "minimum", "periodicity", "convolution", "fft", "ifft", "ntt", "intt", "fwht",
    "ifwht", "use", "subsets", "variations", "flatten", "group", "take", "sift", "ordered",
    "posify", "fraction", "numer", "denom", "rad", "deg", "idiff", "sequence", "terms_gcd", "trunc",
    "viete", "fu", "fps", "comp", "prod", "per", "evaluate", "capture", "cartes", "centroid",
    "expand_mul", "expand_log", "expand_trig", "expand_func", "ring", "field", "gruntz", "igcd",
    "ilcm", "intersection", "intervals", "isolate", "latex", "minpoly", "mod_inverse", "nfloat",
    "pprint", "pretty", "rcollect", "reshape", "rootof", "rotations", "separatevars", "shape",
    "signsimp", "srepr", "sstr", "sturm", "symmetrize", "timed", "trailing", "wronskian",
    "composite", "primorial", "sqrtdenest", "hyperexpand", "exptrigsimp", "collect_const",
    "factor_terms", "gcd_terms", "imageset", "vfield", "vring", "xring", "sring", "sfield",
    "xfield", "gff", "symarray"]

def surroundings : List String :=
  ["abs", "aiter", "all", "anext", "any", "ascii", "bin", "breakpoint", "callable", "chr",
    "compile", "delattr", "dir", "divmod", "eval", "exec", "format", "getattr", "globals",
    "hasattr", "hash", "hex", "id", "input", "isinstance", "issubclass", "iter", "len", "locals",
    "next", "oct", "open", "ord", "pow", "print", "repr", "round", "setattr", "sorted", "sum",
    "vars"]

def singles : List (String × String) :=
  [("S", "SingletonRegistry"), ("Q", "AssumptionKeys"), ("None", "NoneType"), ("exp", "ExpMeta"),
    ("exp_polar", "ExpMeta"), ("Predicate", "PredicateMeta"), ("lex", "LexOrder"),
    ("grlex", "GradedLexOrder"), ("grevlex", "ReversedGradedLexOrder"),
    ("ZZ_I", "GaussianIntegerRing"), ("QQ_I", "GaussianRationalField"), ("EXRAW", "EXRAWDomain"),
    ("ZZ", "IntegerRing"), ("QQ", "RationalField"), ("RR", "RealField"), ("CC", "ComplexField"),
    ("EX", "ExpressionDomain")]

def kind? (name : String) : Option String :=
  match singles.lookup name with
  | some kind => some kind
  | none =>
    if functions.contains name then some "FunctionClass"
    else if structures.contains name then some "type"
    else if procedures.contains name then some "function"
    else if surroundings.contains name then some "builtin_function_or_method"
    else none

end FormulaCalculator.Symbolic.Vocabulary
