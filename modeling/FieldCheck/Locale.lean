/-
FieldCheck.Locale — names of languages.

A locale is two or three ASCII letters and then any number of groups, each a
`-` or `_` with one or more ASCII letters or digits behind it.

The pattern of locales describes a text by its beginning and its end, and
the end may be in front of a final line feed, so a locale with one line feed
behind it is in the pattern although it is no locale.
-/
import FieldCheck.Schema

namespace FieldCheck.Locale

/-- A mark that starts a group. -/
def isMark (c : Char) : Bool := c == '-' || c == '_'

/-- A group behind its mark. -/
def isGroup (cs : List Char) : Bool := !cs.isEmpty && cs.all Char.isAlphanum

/-- The letters of a language. -/
def isLanguage (cs : List Char) : Bool :=
  2 ≤ cs.length && cs.length ≤ 3 && cs.all Char.isAlpha

/-- A text that is a locale. -/
def isLocale (cs : List Char) : Bool :=
  match cs.splitOnP isMark with
  | language :: groups => isLanguage language && groups.all isGroup
  | [] => false

/-- A text without a line feed at its end. -/
def beforeLineEnd (cs : List Char) : List Char :=
  if cs.getLast? = some '\n' then cs.dropLast else cs

/-- The pattern of locales. -/
def pattern : Pattern where
  source := "^[A-Za-z]\x7b2,3\x7d([-_][A-Za-z0-9]+)*$"
  accepts cs := isLocale cs || isLocale (beforeLineEnd cs)

example : isLocale "en".toList = true ∧ isLocale "pt-BR_x1".toList = true := by decide +kernel
example : isLocale "english".toList = false ∧ isLocale "en-".toList = false := by decide +kernel

end FieldCheck.Locale
