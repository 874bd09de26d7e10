import CloudEdgePush.Lib.Disk
import CloudEdgePush.Client.Ptree
import CloudEdgePush.Client.TcpMessage

/-!
# File records

`FileInfo_t`, its JSON forms (`fileinfos_rw.cpp`, `json_message_processor.cpp`) and what
`getFileInfo` finds out about a file.  A JSON text is read and written by
`boost::property_tree`; the program works on the tree.

`Platform` holds what the program takes from its surroundings.  Paths are resolved by
`canon`: two paths with one image lead to one file.  Files can be opened.
-/

namespace CloudEdgePush.Client

open CloudEdgePush.Lib

structure Platform where
  canon : String → String
  currentPath : String
  /-- The MD5 digest, in hexadecimal digits. -/
  md5 : Bytes → String
  lastWriteTime : String → UInt64
  localIp : String
  readJson : Bytes → Option Ptree
  writeJson : Ptree → Option Bytes
  /-- `get_optional<uint64_t>` of a tree's data. -/
  readUInt64 : String → Option UInt64

def iequals (a b : String) : Bool := a.toList.map Char.toUpper == b.toList.map Char.toUpper

structure FileInfo where
  filesize : UInt64 := 0
  modifyTime : UInt64 := 0
  type : String := ""
  md5 : String := ""
  savePath : String := ""
  remotefileUrl : String := ""
  version : String := ""
  filename : String := ""
deriving DecidableEq, Repr, Inhabited

/-! ## JSON -/

namespace FileInfo

def toPtree (f : FileInfo) : Ptree :=
  Ptree.empty
    |>.put "modify_time" (toString f.modifyTime)
    |>.put "type" f.type
    |>.put "md5" f.md5
    |>.put "save_path" f.savePath
    |>.put "remotefile_url" f.remotefileUrl
    |>.put "version" f.version
    |>.put "filename" f.filename
    |>.put "filesize" (toString f.filesize)

/-- The fields found in a tree, over those of `f`. -/
def readFields (p : Platform) (tree : Ptree) (f : FileInfo) : FileInfo where
  modifyTime := ((tree.getString? "modify_time").bind p.readUInt64).getD f.modifyTime
  type := (tree.getString? "type").getD f.type
  md5 := (tree.getString? "md5").getD f.md5
  savePath := (tree.getString? "save_path").getD f.savePath
  remotefileUrl := (tree.getString? "remotefile_url").getD f.remotefileUrl
  version := (tree.getString? "version").getD f.version
  filename := (tree.getString? "filename").getD f.filename
  filesize := ((tree.getString? "filesize").bind p.readUInt64).getD f.filesize

end FileInfo

/-- `""` when the tree cannot be written. -/
def writeFileInfos2Str (p : Platform) (fileInfoVec : List FileInfo) : Bytes :=
  let files := fileInfoVec.foldl (fun files f => files.pushBack f.toPtree) Ptree.empty
  (p.writeJson (Ptree.empty.putChild "files" files)).getD []

def decodeDownloadFileInfo (p : Platform) (json : Bytes) : Option FileInfo := do
  let pt ← p.readJson json
  let f ← pt.child? "data"
  return FileInfo.readFields p f {}

/-! ## Files -/

/-- The value of an `int` after `n` was stored in it. -/
def intOf (n : Nat) : Int := (BitVec.ofNat 32 n).toInt

/-- `getMd5` of a file, whose length is an `int`; a negative one is an exception. -/
def getMd5 (p : Platform) (content : Bytes) : Option String :=
  if intOf content.length < 0 then none else some (p.md5 (content.take (intOf content.length).toNat))

/-- `getFileInfo` writes to `t`, unless there is no file; `none` is an exception. -/
def getFileInfo (p : Platform) (disk : Disk String UInt8) (path : String) (t : FileInfo) :
    Option FileInfo :=
  match disk.file (p.canon path) with
  | none => some t
  | some content =>
      (getMd5 p content).map fun md5 =>
        { t with
          filesize := UInt64.ofNat content.length
          md5 := md5
          modifyTime := p.lastWriteTime path }

theorem intOf_of_lt {n : Nat} (h : n < 2 ^ 31) : intOf n = n := by
  rw [intOf, BitVec.toInt_eq_toNat_of_lt (by rw [BitVec.toNat_ofNat]; omega), BitVec.toNat_ofNat,
    Nat.mod_eq_of_lt (by omega)]

theorem getMd5_of_lt (p : Platform) {content : Bytes} (h : content.length < 2 ^ 31) :
    getMd5 p content = some (p.md5 content) := by
  rw [getMd5, intOf_of_lt h, if_neg (by omega), Int.toNat_natCast, List.take_length]

/-! ## A platform -/

def sampleMd5 (content : Bytes) : String :=
  if content = [] then "D41D8CD98F00B204E9800998ECF8427E"
  else if content = [0x61] then "0CC175B9C0F1B6A831C399E269772661"
  else if content = [0x62] then "92EB5FFEE6AE2FEC3AD71C777531578F"
  else if content = [0x63] then "4A8A08F09D37B73795649038408B5F33"
  else ""

def samplePlatform : Platform where
  canon := id
  currentPath := "/app"
  md5 := sampleMd5
  lastWriteTime := fun _ => 0
  localIp := "127.0.0.1"
  readJson := fun _ => none
  writeJson := fun pt => some pt.jsonBytes
  readUInt64 := fun _ => none

end CloudEdgePush.Client
