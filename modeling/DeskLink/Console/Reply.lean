import DeskLink.Failure
import DeskLink.Json.Printing

/-!
# Replies of a console

A console answers every request by one line: whether it succeeded, what it has to say, and the
complaint if it did not succeed.

    ← {"success": true, "data": 2, "error": null}
    ← {"success": false, "data": null, "error": "unknown command `reboot`"}
-/

namespace DeskLink.Console

/-- Why a console refuses a request. -/
inductive Complaint where
  /-- The line is no request. -/
  | request (detail : String)
  /-- There is no command of this name. -/
  | command (name : String)
  /-- The command does not take these arguments. -/
  | arguments (detail : String)
  /-- The commands cannot be told apart. -/
  | table (detail : String)
  /-- Nobody takes captured input. -/
  | captureClosed
  | failure (why : Failure)
  deriving DecidableEq

def Complaint.message : Complaint → String
  | request detail => s!"invalid request: {detail}"
  | command name => "unknown command \x60" ++ name ++ "\x60"
  | arguments detail => s!"invalid arguments: {detail}"
  | table detail => s!"invalid command table: {detail}"
  | captureClosed => "input capture channel is closed"
  | failure why => why.message

/-- The answer to a request: what there is to say, or a complaint. -/
abbrev Reply := Except Complaint Json

def Reply.toJson : Reply → Json
  | .ok data => .obj [("success", .bool true), ("data", data), ("error", .null)]
  | .error why => .obj [("success", .bool false), ("data", .null), ("error", .str why.message)]

def Reply.toLine (r : Reply) : String := r.toJson.render

end DeskLink.Console
