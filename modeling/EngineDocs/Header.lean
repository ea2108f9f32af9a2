/-
This file puts the four recognizers together. Each of them searches the whole text of a header on
its own, so one stretch of text may give records of several kinds.
-/

import EngineDocs.Header.Class
import EngineDocs.Header.Enum
import EngineDocs.Header.Function
import EngineDocs.Header.Struct

namespace EngineDocs.Header

/-- All declarations of one header. The path is written into every record as it is given. -/
def extractAll (content filePath : String) : DeclarationSet :=
  let text := content.toList
  { classes := recognizeClasses text filePath
    functions := recognizeFunctions text filePath
    enums := recognizeEnums text filePath
    structs := recognizeStructs text filePath }

end EngineDocs.Header
