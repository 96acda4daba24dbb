import ProviderRegistry.DottedName
import ProviderRegistry.Text.Lowercase

/-!
# Names of generated things

How the names of factories, factory modules and registry files follow from
the name of a contract. A module name is the snake-case form of a class name:
two passes put an underscore before the capitals that start a word, the first
before a capital that small letters follow, the second between a small letter
or digit and a capital, and the result is lower-cased.
-/

namespace ProviderRegistry.Naming

/-- The directory of registry files, below the class output. -/
def servicesDir : String := "META-INF/services"

/-- What the name of a factory class ends with. -/
def factorySuffix : String := "Factory"

/-- The name of a factory's accessor. -/
def accessorName : String := "get_instance"

/-- An ASCII capital. -/
def isCapital (c : Char) : Bool := c.isUpper

/-- An ASCII small letter. -/
def isSmall (c : Char) : Bool := c.isLower

/-- The first pass: any character but a newline, a capital and the small letters
after it, of which there is at least one, get an underscore after the first.
Matches do not overlap and are found from the left. -/
def separateWords : List Char → List Char
  | [] => []
  | [c] => [c]
  | c :: d :: rest =>
    if c != '\n' && isCapital d && (rest.takeWhile isSmall) != [] then
      c :: '_' :: d :: (rest.takeWhile isSmall ++ separateWords (rest.dropWhile isSmall))
    else c :: separateWords (d :: rest)
termination_by text => text.length
decreasing_by
  · have := (List.dropWhile_suffix isSmall (l := rest)).length_le
    simp only [List.length_cons]
    omega
  · simp

/-- The second pass: a small letter or digit and the capital after it get an
underscore between them. Matches do not overlap. -/
def separateCapitals : List Char → List Char
  | [] => []
  | [c] => [c]
  | c :: d :: rest =>
    if (isSmall c || c.isDigit) && isCapital d then c :: '_' :: d :: separateCapitals rest
    else c :: separateCapitals (d :: rest)

/-- The snake-case form of a text. -/
def snakeCaseChars (text : List Char) : List Char :=
  Text.lower (separateCapitals (separateWords text))

/-- The snake-case form of a name. -/
def snakeCase (name : String) : String := String.ofList (snakeCaseChars name.toList)

/-- The package of a module and the module's own name in it. -/
def splitModule (module : String) : String × String := splitLastDot module

/-- The name of a contract's factory class. -/
def factoryClass (simpleName : String) : String := simpleName ++ factorySuffix

/-- The name of a contract's factory module, without its package. -/
def factoryModule (simpleName : String) : String := snakeCase (factoryClass simpleName)

/-- The full name of a contract's factory module: it stands in the contract's
package. -/
def factoryModuleIn (package simpleName : String) : String :=
  qualify package (factoryModule simpleName)

/-- A directory without the slashes it ends with. -/
def withoutTrailingSlashes (directory : String) : String :=
  String.ofList (directory.toList.reverse.dropWhile (· == '/')).reverse

/-- The registry file of a contract, relative to the class output. -/
def registryFile (contractName : String) (servicesDir : String := servicesDir) : String :=
  withoutTrailingSlashes servicesDir ++ "/" ++ contractName

end ProviderRegistry.Naming
