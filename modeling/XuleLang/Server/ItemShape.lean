import XuleLang.Shape

/-!
Items of completion as editors send them back.

An editor may ask for more about an item that it was offered. There is nothing more to say, so it
gets back what is understood of the item.
-/

namespace XuleLang

open Shape

/-- A small number, by which editors name the sort of something. -/
def sortShape : Shape := whole (-2147483648) 2147483647

/-- A line, or a place in a line. -/
def indexShape : Shape := whole 0 4294967295

/-- A place in a document. -/
def placeShape : Shape := record [needed "line" indexShape, needed "character" indexShape]

/-- A stretch of a document. -/
def rangeShape : Shape := record [needed "start" placeShape, needed "end" placeShape]

/-- What an edit puts in the place of a stretch. -/
def editShape : Shape := record [needed "range" rangeShape, needed "newText" text]

/-- An edit that either inserts or replaces. -/
def insertOrReplaceShape : Shape :=
  record [needed "newText" text, needed "insert" rangeShape, needed "replace" rangeShape]

/-- A text and how it is marked up. -/
def markupShape : Shape :=
  record [needed "kind" (word ["plaintext", "markdown"]), needed "value" text]

/-- What an editor shows beside the label of an item. -/
def labelDetailsShape : Shape := record [optional "detail" text, optional "description" text]

/-- What an editor does when an item was chosen. -/
def commandShape : Shape :=
  record [needed "title" text, needed "command" text, optional "arguments" (listOf any)]

/-- An item of completion. -/
def itemShape : Shape :=
  record [
    needed "label" text,
    optional "labelDetails" labelDetailsShape,
    optional "kind" sortShape,
    optional "detail" text,
    optional "documentation" (either text markupShape),
    optional "deprecated" flag,
    optional "preselect" flag,
    optional "sortText" text,
    optional "filterText" text,
    optional "insertText" text,
    optional "insertTextFormat" sortShape,
    optional "insertTextMode" sortShape,
    optional "textEdit" (either editShape insertOrReplaceShape),
    optional "additionalTextEdits" (listOf editShape),
    optional "command" commandShape,
    optional "commitCharacters" (listOf text),
    optional "data" any,
    optional "tags" (listOf sortShape)]

/-- An item with what is known of it, which is what is understood of it. -/
def resolvedItem? : Json → Option Json := itemShape

end XuleLang
