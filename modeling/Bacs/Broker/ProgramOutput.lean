import Bacs.Broker.PythonWorker
import Bacs.Broker.TextRoundTrip

/-!
# What the worker makes of the output of a program

The program writes its statuses and results with the channel of the C++
library, and the worker in Python reads them.
-/

namespace Bacs.Broker.PythonWorker

open Foundation

variable {codings : Text.Codings Status Worker.Result Raised}
  {incorrectPadding : Raised}
  {library : Text.Library Status Worker.Result}

/-! ## The lines of the output -/

/-- The library writes base64 without line breaks, and the generated code
reads back the messages of `kinds`. -/
structure Agrees (library : Text.Library Status Worker.Result)
    (codings : Text.Codings Status Worker.Result Raised)
    (kinds : List (Text.Kind Status Worker.Result)) : Prop where
  encode : ∀ data, library.encode data = Base64.encode data
  status : ∀ status, .status status ∈ kinds →
    codings.status.unmarshal (library.statusToString status) = .ok status
  result : ∀ result, .result result ∈ kinds →
    codings.result.unmarshal (library.resultToString result) = .ok result

theorem Agrees.tail {kind : Text.Kind Status Worker.Result}
    {kinds : List (Text.Kind Status Worker.Result)}
    (agrees : Agrees library codings (kind :: kinds)) :
    Agrees library codings kinds where
  encode := agrees.encode
  status status member :=
    agrees.status status (List.mem_cons_of_mem _ member)
  result result member :=
    agrees.result result (List.mem_cons_of_mem _ member)

/-- What the worker makes of what the program sends: a message without
content is ignored. -/
def forward (library : Text.Library Status Worker.Result) :
    List (Text.Kind Status Worker.Result) → Worker.Result →
      Work Worker.Result
  | [], result => .returns result
  | .status status :: rest, result =>
      if library.statusToString status = [] then forward library rest result
      else do
        Work.send status
        forward library rest result
  | .result found :: rest, result =>
      if library.resultToString found = [] then forward library rest result
      else forward library rest found

end Bacs.Broker.PythonWorker
