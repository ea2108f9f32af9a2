/-
This file holds the reading of export macros, the words such as `ENGINE_API` that may stand before
the name in a declaration. A declaration does not say where its macro ends, so reading one gives
the lengths of all beginnings of a word that could be the macro, and the reader of the declaration
takes the first one with which the rest can be read.
-/

import EngineDocs.Text.Basic

namespace EngineDocs.Header

/-- The export macros known by name. -/
def knownExportMacros : List Text := ["CORE_API".toList, "ENGINE_API".toList]

/-- The ending of every export macro. -/
def exportSuffix : Text := "_API".toList

/-- A word is an export macro when it is known by name, or when it is an identifier that ends in
`_API` and has something before that. -/
def isExportMacro (word : Text) : Bool :=
  knownExportMacros.contains word ||
    (exportSuffix.length < word.length && Text.endsWith exportSuffix word &&
      word.all Text.isWord)

/-- The lengths of the beginnings of a word that end in `_API` and have something before that, the
longest first. The word is given in reverse and has `length` characters. -/
def exportLengthsFrom (length : Nat) : (reversed : Text) → List Nat
  | [] => []
  | c :: reversed =>
    match Text.after? exportSuffix.reverse (c :: reversed) with
    | some (_ :: _) => length :: exportLengthsFrom (length - 1) reversed
    | _ => exportLengthsFrom (length - 1) reversed

/-- The lengths of what may be read as an export macro at the start of a text, the preferred one
first: a macro known by name, then the longest beginning of the leading word that ends in `_API`,
then the shorter ones. -/
def exportMacroLengths (text : Text) : List Nat :=
  let word := Text.leadingWord text
  (knownExportMacros.filter fun known => Text.startsWith known word).map List.length ++
    exportLengthsFrom word.length word.reverse

end EngineDocs.Header
