import SqlHandler.Posix.Regex

/-!
# The regular expressions of the handler

`SQLQueryDefinitions.h`, `SQLAttribute.h` and `SQLTextDefinitions.h`. In a bracket
expression a backslash is an ordinary letter, `[A-z]` holds the letters and
``[ \ ] ^ _ ` ``, and `\w` is the GNU abbreviation for a letter, a digit or `_` of
the C locale. A `]` outside a bracket expression stands for itself.
-/

namespace SqlHandler
open Posix

def between (lo hi c : Char) : Bool := lo.toNat ≤ c.toNat && c.toNat ≤ hi.toNat

/-- `[A-z]` -/
def upToZ (c : Char) : Bool := between 'A' 'z' c

/-- `[0-9]` -/
def digit (c : Char) : Bool := between '0' '9' c

/-- `\w` -/
def wordChar (c : Char) : Bool := between 'A' 'Z' c || between 'a' 'z' c || digit c || c == '_'

/-- `[A-z0-9\_]` -/
def nameChar (c : Char) : Bool := upToZ c || digit c || c == '\\' || c == '_'

/-- `[ ]*` -/
def spaces : Regex := .star (.lit ' ')

/-! ## `SQLQueryDefinitions.h` -/

/-- `[A-z0-9\_\. ]` -/
def attrChar (c : Char) : Bool := nameChar c || c == '.' || c == ' '

/-- `[\*]` -/
def starChar (c : Char) : Bool := c == '\\' || c == '*'

/-- `_SQLH_CONT_REG_ATTR`: `(^|,)[ ]*([A-z0-9\_\. ]+|[\*])[ ]*(,|$)` -/
def contRegAttr : Regex :=
  .seq (.group 1 (.alt .bol (.lit ','))) <| .seq spaces <|
  .seq (.group 2 (.alt (.plus (.set attrChar)) (.set starChar))) <| .seq spaces <|
  .group 3 (.alt (.lit ',') .eol)

/-- `_SQLH_CONT_REG_ATTR_GROUP` -/
def contRegAttrGroup : Nat := 2

/-- `_SQLH_CONT_ATTR_JOIN` -/
def contAttrJoin : Str := ",".toList

/-- `[A-z,0-9]` -/
def prefixChar (c : Char) : Bool := upToZ c || c == ',' || digit c

/-- `[\',\",\%,\*]` -/
def quoteChar (c : Char) : Bool :=
  c == '\\' || c == '\'' || c == ',' || c == '"' || c == '%' || c == '*'

/-- `[\.?,\_?,\w*,[0-9]`, all of it one bracket expression -/
def midChar (c : Char) : Bool :=
  c == '\\' || c == '.' || c == '?' || c == ',' || c == '_' || c == 'w' || c == '*' || c == '[' || digit c

/-- The comparators, in the order of the alternatives. -/
def comparators : List Str :=
  ["<".toList, ">".toList, "=".toList, "!=".toList, "<=".toList, ">=".toList, "~=".toList, "<>".toList]

/-- `([A-z,0-9]+\.)?(\w+[0-9]*\.?\_?\w*[0-9]*)` -/
def constrAttr : Regex :=
  .seq (.opt (.group 2 (.seq (.plus (.set prefixChar)) (.lit '.')))) <|
  .group 3 (.seq (.plus (.set wordChar)) <| .seq (.star (.set digit)) <| .seq (.opt (.lit '.')) <|
    .seq (.opt (.lit '_')) <| .seq (.star (.set wordChar)) (.star (.set digit)))

/-- `[\',\",\%,\*]*\w*[\.?,\_?,\w*,[0-9]*]*[\',\",\%,\*]*` -/
def constrVal : Regex :=
  .seq (.star (.set quoteChar)) <| .seq (.star (.set wordChar)) <| .seq (.star (.set midChar)) <|
  .seq (.star (.lit ']')) (.star (.set quoteChar))

/-- `_SQLH_CONT_REG_CONSTR_BASE` -/
def contRegConstrBase : Regex :=
  .seq spaces <| .seq (.opt (.lit '&')) <| .seq (.group 1 constrAttr) <| .seq spaces <|
  .seq (.group 4 (.words comparators)) <| .seq spaces (.group 5 constrVal)

/-- `_SQLH_CONT_REG_CONSTR_BASE_ATTR` -/
def constrAttrGroup : Nat := 1

/-- `_SQLH_CONT_REG_CONSTR_BASE_COMPARATOR` -/
def constrComparatorGroup : Nat := 4

/-- `_SQLH_CONT_REG_CONSTR_BASE_VAL` -/
def constrValGroup : Nat := 5

/-- `_SQLH_CONT_REG_CONSTR_BASE_JOIN` -/
def constrJoin : Str := " AND ".toList

/-! ## `SQLAttribute.h` -/

/-- `([A-z0-9\_]+\.)*([A-z0-9\_]+)`, its groups numbered from `g` -/
def attrPath (g : Nat) : Regex :=
  .seq (.star (.group g (.seq (.plus (.set nameChar)) (.lit '.')))) (.group (g + 1) (.plus (.set nameChar)))

/-- `[ ]+| [Aa][Ss] ` -/
def attrSeparator : Regex :=
  .alt (.plus (.lit ' ')) <| .seq (.lit ' ') <| .seq (.set fun c => c == 'A' || c == 'a') <|
    .seq (.set fun c => c == 'S' || c == 's') (.lit ' ')

/-- `_SQLH_REG_ATTR` -/
def regAttr : Regex :=
  .alt (.seq .bol <| .seq spaces <| .seq (.group 1 (attrPath 2)) <| .seq spaces .eol) <|
  .alt (.seq .bol <| .seq spaces <| .seq (.group 4 (attrPath 5)) <| .seq (.group 7 attrSeparator) <|
    .seq (.group 8 (.plus (.set nameChar))) <| .seq spaces .eol)
  (.seq .bol <| .seq spaces <| .seq (.group 9 (.alt (.plus (.set nameChar)) (.set starChar))) <|
    .seq spaces .eol)

/-! ## `SQLTextDefinitions.h` -/

/-- `[A-z,0-9]`, also written `[A-z,0-9,_]` -/
def varChar (c : Char) : Bool := prefixChar c

/-- `_SQLH_DATASET_REG_VAR`: `(\$[A-z,0-9]*\$)` -/
def regVar : Regex :=
  .group 1 (.seq (.lit '$') <| .seq (.star (.set varChar)) (.lit '$'))

/-- `[A-z,0-9,\',\", ,\,]` -/
def defValChar (c : Char) : Bool := prefixChar c || c == '\\' || c == '\'' || c == '"' || c == ' '

/-- `_SQLH_DATASET_REG_DEFVAR` -/
def regDefVar : Regex :=
  .seq spaces <| .seq (.word "define".toList) <| .seq (.plus (.lit ' ')) <|
  .seq (.group 1 (.seq (.lit '$') <| .seq (.star (.set varChar)) (.lit '$'))) <| .seq spaces <|
  .seq (.lit '=') <| .seq spaces (.group 2 (.plus (.set defValChar)))

/-- `_SQLH_DATASET_REG_COMMENTS`: `^[ ]*#` -/
def regComments : Regex := .seq .bol <| .seq spaces (.lit '#')

/-- `_SQLH_DATASET_REG_TAGS`: `^[ ]*(\[[A-z,0-9,_]*\])[ ]*$` -/
def regTags : Regex :=
  .seq .bol <| .seq spaces <|
  .seq (.group 1 (.seq (.lit '[') <| .seq (.star (.set varChar)) (.lit ']'))) <| .seq spaces .eol

/-- `[A-z,0-9,\',\", ,\,,\*,\%,<,>,!,~]` -/
def keyValChar (c : Char) : Bool :=
  defValChar c || c == '*' || c == '%' || c == '<' || c == '>' || c == '!' || c == '~'

/-- `_SQLH_DATASET_REG_KEY_VAL` -/
def regKeyVal : Regex :=
  .seq .bol <| .seq spaces <|
  .seq (.group 1 (.alt (.star (.set varChar))
    (.words ["!=".toList, "<=".toList, ">=".toList, "~=".toList, "*".toList]))) <|
  .seq spaces <| .seq (.lit '=') <| .seq spaces <|
  .group 2 (.alt (.words ["==".toList, ">=".toList, "<=".toList, "~=".toList, "!=".toList])
    (.plus (.set keyValChar)))

end SqlHandler
