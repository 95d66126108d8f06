/-
# Workspaces

A workspace is the set of open documents, each under its identifier.  It is a state machine:
opening and changing replace a document as a whole, closing removes it, and the other
requests only look at it.
-/
import Idl.Document

namespace Idl

/-- The open documents by identifier. -/
structure Workspace where
  /-- The documents; no identifier occurs twice. -/
  documents : List (Text × Document)

/-- What an editor asks for. -/
inductive Request where
  /-- A document is opened with a text. -/
  | opened (uri text : Text)
  /-- A document is changed; each text is the whole text after one change. -/
  | changed (uri : Text) (texts : List Text)
  /-- A document is closed. -/
  | closed (uri : Text)
  /-- What is shown for a place. -/
  | hover (uri : Text) (line : Int) (offset : Nat)
  /-- The tree of symbols. -/
  | symbols (uri : Text)
  /-- The edit that formats the document with an indentation. -/
  | formatting (uri : Text) (indent : Int)
deriving DecidableEq

/-- What an editor is told. -/
inductive Reply where
  /-- The problems of a document, after every opening and change. -/
  | published (uri : Text) (problems : List SyntaxError)
  /-- The identifiers of the documents that are still open. -/
  | stillOpen (uris : List Text)
  /-- What is shown for a place, if anything. -/
  | hover (text : Option Text)
  /-- The tree of symbols. -/
  | symbols (symbols : List Symbol)
  /-- The edit, if one is needed, or why there is no formatter of the indentation. -/
  | formatting (edit : Except WidthProblem (Option Document.Edit))

namespace Workspace

/-- The workspace without open documents. -/
def empty : Workspace := ⟨[]⟩

/-- The open document of an identifier. -/
def find? (w : Workspace) (uri : Text) : Option Document := w.documents.lookup uri

/-- The workspace without a document. -/
def remove (w : Workspace) (uri : Text) : Workspace := ⟨w.documents.filter (·.1 ≠ uri)⟩

/-- The workspace with a document of a text, in place of any earlier one. -/
def put [Machine] (w : Workspace) (uri text : Text) : Workspace :=
  ⟨(uri, Document.ofText text) :: (w.remove uri).documents⟩

/-- The identifiers of the open documents, in order. -/
def uris (w : Workspace) : List Text := (w.documents.map Prod.fst).mergeSort Text.le

/-- Takes over a text and tells its problems. -/
def publish [Machine] (w : Workspace) (uri text : Text) : Reply × Workspace :=
  (.published uri (Document.ofText text).problems, w.put uri text)

/-- Handles a request.  Of several changes the last one counts; without any the document
becomes empty. -/
def handle [Machine] (w : Workspace) : Request → Reply × Workspace
  | .opened uri text => w.publish uri text
  | .changed uri texts => w.publish uri (texts.getLast?.getD [])
  | .closed uri =>
    let w := w.remove uri
    (.stillOpen w.uris, w)
  | .hover uri line offset => (.hover ((w.find? uri).bind (·.hover line offset)), w)
  | .symbols uri => (.symbols (((w.find? uri).map (·.symbols)).getD []), w)
  | .formatting uri indent =>
    (.formatting (((w.find? uri).map (·.formatting indent)).getD (.ok none)), w)

/-- Handles requests one after the other. -/
def handleAll [Machine] (w : Workspace) : List Request → List Reply × Workspace
  | [] => ([], w)
  | r :: rs =>
    let (reply, w) := w.handle r
    let (replies, w) := w.handleAll rs
    (reply :: replies, w)

end Workspace

end Idl
