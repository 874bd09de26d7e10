import CloudEdgePush.Client.FileInfo

/-!
# `SysUpdateHandler`

Downloads and the list of downloaded files.  A download is the answer of the HTTP server to
the two requests of `downloadFile`: the length that `GetDownloadFileLength` reports (or -1)
and the bytes that `Download` appends to the `.tmp` file.  The counter `s_totalSize` is a
static variable of the function: there is one for all files of the process.  Without a directory for
the file, `create_directories` throws, and nothing is asked of the server.
-/

namespace CloudEdgePush.Client

open CloudEdgePush.Lib

structure Transfer where
  /-- The directory of the destination is there, or it can be made. -/
  directory : Bool
  fileLength : Int
  body : Bytes
deriving DecidableEq, Repr

/-- What `Download` asks for: the bytes of a range, both ends included. -/
structure HttpRequest where
  url : String
  rangeBegin : Int
  rangeEnd : Int
deriving DecidableEq, Repr

/-- The object, the static counter, the disk and the requests sent so far. -/
structure SysUpdateHandler where
  fileServer : String
  fileInfoVec : List FileInfo
  totalSize : UInt64
  disk : Disk String UInt8
  requests : List HttpRequest

namespace SysUpdateHandler

variable (p : Platform)

def start (fileServer : String) (disk : Disk String UInt8) : SysUpdateHandler :=
  { fileServer, fileInfoVec := [], totalSize := 0, disk, requests := [] }

def tmpFilename (dstFilename : String) : String := dstFilename ++ ".tmp"

def fileAt (h : SysUpdateHandler) (path : String) : Option Bytes := h.disk.file (p.canon path)

def partialContent (h : SysUpdateHandler) (dstFilename : String) : Bytes :=
  h.disk.contentOf (p.canon (tmpFilename dstFilename))

/-- `exists(parent_path)`, or else `create_directories(parent_path)` does not throw; it does for the
empty path, the parent of a name without a slash. -/
def hasParentPath (dstFilename : String) (tr : Transfer) : Bool :=
  dstFilename.toList.contains '/' && tr.directory

def transfer (h : SysUpdateHandler) (url dstFilename : String) (tr : Transfer) :
    SysUpdateHandler :=
  { h with
    disk := h.disk.append (p.canon (tmpFilename dstFilename)) tr.body
    totalSize := h.totalSize + UInt64.ofNat tr.body.length
    requests := h.requests ++
      [{ url := h.fileServer ++ "/" ++ url
         rangeBegin := (h.partialContent p dstFilename).length
         rangeEnd := tr.fileLength - 1 }] }

/-- `s_totalSize >= fileLength`, both converted to `uint64_t`. -/
def complete (h : SysUpdateHandler) (tr : Transfer) : Bool :=
  decide (UInt64.ofInt tr.fileLength ≤ h.totalSize)

/-- `downloadFile(url, dst_filename)`; `none` is an exception. -/
def downloadUrl (h : SysUpdateHandler) (url dstFilename : String) (tr : Transfer) :
    Option Bool × SysUpdateHandler :=
  if url = "" ∨ dstFilename = "" then (some false, h)
  else if !hasParentPath dstFilename tr then (none, h)
  else
    let h := h.transfer p url dstFilename tr
    if h.complete tr then
      (some true,
        { h with
          totalSize := 0
          disk := h.disk.rename (p.canon (tmpFilename dstFilename)) (p.canon dstFilename) })
    else (some false, h)

def sameFile (f t : FileInfo) : Bool :=
  f.filename = t.filename ∧ f.savePath = t.savePath ∧ f.filesize = t.filesize ∧ iequals f.md5 t.md5

def isNeedDownload (h : SysUpdateHandler) (t : FileInfo) : Bool :=
  !h.fileInfoVec.any fun f => sameFile f t && (h.fileAt p f.savePath).isSome

def matchesSource (downloaded t : FileInfo) : Bool :=
  iequals downloaded.md5 t.md5 && downloaded.filesize == t.filesize

/-- `downloadFile(t)`; `none` is an exception. -/
def downloadFile (h : SysUpdateHandler) (t : FileInfo) (tr : Transfer) :
    Option Bool × SysUpdateHandler :=
  match h.downloadUrl p t.remotefileUrl t.savePath tr with
  | (none, h) => (none, h)
  | (some false, h) => (some false, h)
  | (some true, h) => ((getFileInfo p h.disk t.savePath {}).map (matchesSource · t), h)

def sameRecord (t f : FileInfo) : Bool :=
  iequals f.md5 t.md5 || (f.filename = t.filename && f.type = t.type)

/-- The first such record is replaced, or the new one is added at the end. -/
def putRecord (t : FileInfo) : List FileInfo → List FileInfo
  | [] => [t]
  | f :: rest => if sameRecord t f then t :: rest else f :: putRecord t rest

def fileInfosPath : String := p.currentPath ++ "/file_infos.json"

def updateFileInfos (h : SysUpdateHandler) (t : FileInfo) : SysUpdateHandler × Bytes :=
  let fileInfoVec := putRecord t h.fileInfoVec
  let fileInfos := writeFileInfos2Str p fileInfoVec
  ({ h with
      fileInfoVec := fileInfoVec
      disk := (h.disk.remove (p.canon (fileInfosPath p))).write (p.canon (fileInfosPath p)) fileInfos },
    fileInfos)

/-- The branch of `onReadBody` for a `kUpdateFileNtf`: the text to publish, if any; `none` is
an exception. -/
def onUpdateFileNtf (h : SysUpdateHandler) (t : FileInfo) (tr : Transfer) :
    Option (SysUpdateHandler × Option Bytes) :=
  if !h.isNeedDownload p t then some (h, none)
  else
    match h.downloadFile p t tr with
    | (none, _) => none
    | (some false, h) => some (h, none)
    | (some true, h) =>
        let (h, fileInfos) := h.updateFileInfos p t
        some (h, some fileInfos)

end SysUpdateHandler

end CloudEdgePush.Client
