import Bacs.Foundation.PathGrammar

/-!
# Keeping a path in a root

The elements of the path go on a stack, from which `..` takes one.  What is
left is appended to the root.  The statement server opens the files of a
package so.
-/

namespace Bacs.Common

open PathGrammar

def push (stack : List Path) (i : Path) : List Path :=
  if i = dotDot then stack.dropLast
  else if i ≠ dot then stack ++ [i]
  else stack

def stripped (path : Path) : Path :=
  ((elements path).foldl push []).foldl append []

def keepInRoot (path root : Path) : Path :=
  append root (stripped path)

example : keepInRoot "../../etc/../passwd".toList "/home/user".toList =
    "/home/user/passwd".toList := rfl

namespace StatementServer

structure FileResponse (Content : Type) where
  opened : Path
  contentType : String
  /-- In `Content-Disposition`. -/
  filename : Path
  content : Content

/-- `server::get`, once the request is verified; `none` is `not_found`. -/
def get {Content : Type} (regularFile : Path → Option Content)
    (mimeTypeByName : Path → String) (path dataRoot : Path) :
    Option (FileResponse Content) :=
  let filepath := keepInRoot path dataRoot
  (regularFile filepath).map fun content =>
    { opened := filepath
      contentType := mimeTypeByName filepath
      filename := (elements filepath).getLast?.getD []
      content }

end StatementServer

end Bacs.Common
