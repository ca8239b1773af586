import Scorecard.Json.Form
import Scorecard.Json.Token

/-!
# Reading documents

The tokens of a document are taken one by one by a machine that keeps a stack of the arrays
and objects still open. The form of the document is what the machine holds when the tokens end
with nothing open. In a document at most 127 arrays and objects may be open at a time.

* `Form.parse?` reads the form of a text, and `Json.parse?` its document.
* `Reader.run_append`: reading on after some tokens is reading from the state they lead to.
-/

namespace Scorecard.Json

namespace Reader

/-- An array or object still open. Its content so far stands in reverse order. -/
inductive Frame
  | array (items : List Form)
  /-- An object with the name of the member whose value comes next. -/
  | object (members : List (Option String × Form)) (name : Option String)

/-- What the machine waits for. -/
inductive State
  /-- A value. -/
  | value (stack : List Frame)
  /-- The first item of an array, or its end. -/
  | firstItem (stack : List Frame)
  /-- The first name of an object, or its end. -/
  | firstName (stack : List Frame)
  /-- A further name of an object with the members so far. -/
  | name (members : List (Option String × Form)) (stack : List Frame)
  /-- The colon after a name. -/
  | colon (members : List (Option String × Form)) (name : Option String) (stack : List Frame)
  /-- A value has been read; a comma or an end comes next. -/
  | done (v : Form) (stack : List Frame)

/-- Takes the first token of a value. -/
def begin (stack : List Frame) : Token → Option State
  | .openArray => some (.firstItem stack)
  | .openObject => some (.firstName stack)
  | .str s => some (.done (.scalar (s.map .str)) stack)
  | .scalar v => some (.done (.scalar v) stack)
  | _ => none

/-- Takes one token. -/
def step : State → Token → Option State
  | .value stack, t => begin stack t
  | .firstItem stack, .closeArray => some (.done (.arr []) stack)
  | .firstItem stack, t => begin (.array [] :: stack) t
  | .firstName stack, .closeObject => some (.done (.obj []) stack)
  | .firstName stack, .str s => some (.colon [] s stack)
  | .name members stack, .str s => some (.colon members s stack)
  | .colon members s stack, .colon => some (.value (.object members s :: stack))
  | .done v (.array items :: stack), .comma => some (.value (.array (v :: items) :: stack))
  | .done v (.array items :: stack), .closeArray => some (.done (.arr (v :: items).reverse) stack)
  | .done v (.object members s :: stack), .comma => some (.name ((s, v) :: members) stack)
  | .done v (.object members s :: stack), .closeObject =>
    some (.done (.obj ((s, v) :: members).reverse) stack)
  | _, _ => none

/-- Takes tokens one by one. -/
def run (state : State) (ts : List Token) : Option State := ts.foldlM step state

/-- The form that a state holds when nothing is open. -/
def finish? : State → Option Form
  | .done v [] => some v
  | _ => none

/-- Reading on after some tokens is reading from the state they lead to. -/
theorem run_append (state : State) (ts us : List Token) :
    run state (ts ++ us) = (run state ts).bind fun s => run s us := by
  simp [run, List.foldlM_append, Option.bind_eq_bind]

end Reader

/-- The form of a text; none if the text has not the form of a document. -/
def Form.parse? (text : String) : Option Form := do
  let ts ← Token.scan text.toList
  let state ← Reader.run (.value []) ts
  Reader.finish? state

/-- The number of arrays and objects that may be open at a time. -/
def maxDepth : Nat := 127

/-- The document of a form; none if the form stands for no document. -/
def ofForm? (form : Form) : Option Json := form.toJson? maxDepth

/-- The document of a text; none if the text is no document. -/
def parse? (text : String) : Option Json := (Form.parse? text).bind ofForm?

end Scorecard.Json
