import CloudEdgePush.Client.Download
import CloudEdgePush.Client.FileInfosRw

/-!
# Digests of large files

`getMd5` keeps the length of the file in an `int`.  From 2 GiB on the length is negative, and
`new` throws, or it has lost its upper bits, and the digest is that of the beginning of the file.
The server takes bodies of up to 10000 MB.
-/

namespace CloudEdgePush.Client

open CloudEdgePush.Lib SysUpdateHandler

def clientMaxBodySize : Nat := 10000 * 2 ^ 20

/-- What is found out about a file, and compared with a record, is about all of its content. -/
structure WholeFile (p : Platform) (disk : Disk String UInt8) (path : String) (content : Bytes) :
    Prop where
  info : ∀ t, getFileInfo p disk path t = some
    { t with
      filesize := UInt64.ofNat content.length
      md5 := p.md5 content
      modifyTime := p.lastWriteTime path }
  size : (UInt64.ofNat content.length).toNat = content.length
  downloaded : ∀ t, verdict p t content =
    some (iequals (p.md5 content) t.md5 && UInt64.ofNat content.length == t.filesize)
  checked : ∀ directory f, checkFile p disk directory path f =
    if UInt64.ofNat content.length ≠ f.filesize ∨ iequals (p.md5 content) f.md5 = false then
      .erased else .kept

theorem intOf_toNat_lt (n : Nat) : (intOf n).toNat < 2 ^ 31 := by
  have hlt := BitVec.toInt_lt (x := BitVec.ofNat 32 n)
  rw [intOf]
  omega

variable {p : Platform} {disk : Disk String UInt8} {path : String} {content : Bytes}

theorem wholeFile_of_lt (hfile : disk.file (p.canon path) = some content)
    (hlt : content.length < 2 ^ 31) : WholeFile p disk path content := by
  have hmd5 : getMd5 p content = some (p.md5 content) := getMd5_of_lt p hlt
  have hinfo (t : FileInfo) : getFileInfo p disk path t = some
      { t with
        filesize := UInt64.ofNat content.length
        md5 := p.md5 content
        modifyTime := p.lastWriteTime path } := by
    simp only [getFileInfo, hfile, hmd5, Option.map_some]
  refine ⟨hinfo, ?_, ?_, ?_⟩
  · rw [UInt64.toNat_ofNat']
    omega
  · intro t
    rw [verdict, hmd5, Option.map_some]
  · intro directory f
    rw [checkFile, hfile, hinfo]

theorem lt_of_getMd5 (hmd5 : ∀ md5, getMd5 { p with md5 := md5 } content = some (md5 content)) :
    content.length < 2 ^ 31 := by
  let md5 : Bytes → String := fun hashed => if hashed.length < 2 ^ 31 then "short" else "long"
  have hhashed := hmd5 md5
  rw [getMd5] at hhashed
  by_cases hneg : intOf content.length < 0
  · rw [if_pos hneg] at hhashed
    cases hhashed
  · rw [if_neg hneg] at hhashed
    have hprefix : (content.take (intOf content.length).toNat).length < 2 ^ 31 := by
      have hlt := intOf_toNat_lt content.length
      rw [List.length_take]
      omega
    have hshort : md5 content = "short" := by
      rw [← Option.some.inj hhashed]
      exact if_pos hprefix
    by_contra hlong
    have hsame : md5 content = "long" := if_neg hlong
    rw [hshort] at hsame
    exact absurd hsame (by decide)

/-- Whatever the digest is: it is that of the whole file exactly below 2 GiB. -/
theorem wholeFile_iff (hfile : disk.file (p.canon path) = some content) :
    (∀ md5, WholeFile { p with md5 := md5 } disk path content) ↔ content.length < 2 ^ 31 := by
  constructor
  · intro hwhole
    apply lt_of_getMd5 (p := p)
    intro md5
    have hdisk : disk.file (({ p with md5 := md5 } : Platform).canon path) = some content := hfile
    have hinfo := (hwhole md5).info {}
    simp only [getFileInfo, hdisk, Option.map_eq_some_iff] at hinfo
    obtain ⟨found, hfound, hsame⟩ := hinfo
    rw [hfound]
    exact congrArg (fun t => some t.md5) hsame
  · intro hlt md5
    exact wholeFile_of_lt hfile hlt

/-! ## Files of one byte and of 2 GiB -/

theorem wholeFile_byte : WholeFile samplePlatform ⟨fun _ => some [0x61]⟩ "/app/a" [0x61] :=
  (wholeFile_iff (p := samplePlatform) rfl).mpr (by decide) samplePlatform.md5

/-- A file of 2 GiB is uploaded, and its length becomes -2147483648. -/
theorem large_file_raises : ¬ ∀ (p : Platform) (disk : Disk String UInt8) (path : String)
    (content : Bytes), disk.file (p.canon path) = some content →
      content.length ≤ clientMaxBodySize → WholeFile p disk path content := by
  intro hall
  let content : Bytes := List.replicate (2 ^ 31) 0
  have hlength : content.length = 2 ^ 31 := List.length_replicate
  have hraised : getMd5 samplePlatform content = none := by
    rw [getMd5, hlength]
    exact if_pos (by decide)
  have hwhole := hall samplePlatform ⟨fun _ => some content⟩ "/app/a" content rfl
    (by rw [hlength]; decide)
  have hverdict := hwhole.downloaded {}
  rw [verdict, hraised] at hverdict
  cases hverdict

end CloudEdgePush.Client
