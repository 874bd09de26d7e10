import CloudEdgePush.Lib.ForEach
import CloudEdgePush.Server.ServiceUpload

/-!
# `service_query.lua` and `service_pushfile.lua`

The two services that look records up in `upload_info`: one answers with them, the other
pushes them to the clients of their type.
-/

namespace CloudEdgePush.Server

open CloudEdgePush.Lib

variable {ν : Type} (h : Host ν)

/-- `type .. '_' .. filename`, for two Lua values; `none` is a Lua error. -/
def infoKey (type filename : Option Json) : Option String := do
  let type ← Json.concatText type
  let filename ← Json.concatText filename
  return type ++ "_" ++ filename

def getInfo (s : Store ν) (key : String) : Option Json :=
  (s.uploadInfo.lookup key).bind h.cjson.decode

namespace ServiceQuery

inductive Answer
  | paramError
  /-- Code 0 and the data, if there is any. -/
  | success (data : Option Json)

/-- All records; `table.insert` raises on the two results of a text that does not decode. -/
def allInfos (s : Store ν) : Option (List Json) := s.uploadInfo.keys.mapM (getInfo h s)

def run (s : Store ν) (method : String) (param : List (String × Json)) : Outcome Answer :=
  if method = "GET" then
    if param.isEmpty then
      match allInfos h s with
      | none => .raised
      | some infos => .returned (.success (some (.arr infos)))
    else if Json.truthy (param.lookup "filename") && Json.truthy (param.lookup "type") then
      match infoKey (param.lookup "type") (param.lookup "filename") with
      | none => .raised
      | some key => .returned (.success (getInfo h s key))
    else .returned .paramError
  else .returned (.success none)

end ServiceQuery

namespace ServicePushfile

/-- One turn of the first loop, for a table with type and filename.  `table.insert` raises on
the two results that `cjson.decode` has for a `nil`. -/
def infoOf (s : Store ν) (type filename : Option Json) : Option Json := do
  let key ← infoKey type filename
  getInfo h s key

def filesInfo (s : Store ν) : List Json → Option (List Json)
  | [] => some []
  | t :: ts => do
      let type ← Json.index (some t) "type"
      let filename ← Json.index (some t) "filename"
      if Json.truthy type && Json.truthy filename then
        let info ← infoOf h s type filename
        let infos ← filesInfo s ts
        return info :: infos
      else filesInfo s ts

/-- One turn of the inner loop.  `f.type` raises on all but tables and strings, and so does the
text of the log when `f` has no encoding. -/
def pushTo (now : String) (f : Json) (shared : Shared) (sessionid : String) : Shared × Bool :=
  match Json.index (some f) "type" with
  | none => (shared, false)
  | some type =>
      if Json.luaEq (shared.clientTypes.lookup sessionid) type then
        (ServiceUpload.publishMessage h now shared f sessionid, (h.cjson.encode f).isSome)
      else (shared, true)

def push (now : String) (shared : Shared) (infos : List Json) : Shared × Bool :=
  forEach (fun shared f => forEach (pushTo h now f) shared shared.clientTypes.keys) shared infos

/-- `run`; `tbl` is what `cjson` makes of the body. -/
def run (s : Store ν) (method : String) (tbl : Option Json) (now : String) :
    Outcome Unit × Store ν :=
  if method = "POST" then
    let infos :=
      match tbl with
      | some (.arr ts) => filesInfo h s ts
      | some (.obj _) => some []
      | _ => none
    match infos with
    | none => (.raised, s)
    | some infos =>
        let (shared, returns) := push h now s.shared infos
        (if returns then .returned () else .raised, { s with shared })
  else (.returned (), s)

end ServicePushfile

end CloudEdgePush.Server
