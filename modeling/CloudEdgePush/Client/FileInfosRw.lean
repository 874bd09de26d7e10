import CloudEdgePush.Client.SysUpdateHandler

/-!
# Reading the record file back

`loadFileInfosFromStr` and `checkFileInfos` of `fileinfos_rw.cpp`.  The reader asks for the type
as an `int` and assigns it to a string, where it becomes one character; the check looks for a
file where it was on the server.
-/

namespace CloudEdgePush.Client

open CloudEdgePush.Lib

/-! ## `get_optional<int>` -/

def isSpace (c : Char) : Bool := c == ' ' || 9 ≤ c.toNat && c.toNat ≤ 13

/-- The sign that `std::num_get` takes. -/
def takeSign : List Char → Bool × List Char
  | '-' :: text => (true, text)
  | '+' :: text => (false, text)
  | text => (false, text)

def digitsValue (digits : List Char) : Nat := digits.foldl (fun n c => 10 * n + (c.toNat - 48)) 0

def readDigits (negative : Bool) (text : List Char) : Option Int :=
  let digits := text.takeWhile Char.isDigit
  let value : Int := if negative then -digitsValue digits else digitsValue digits
  if digits ≠ [] ∧ (text.dropWhile Char.isDigit).all isSpace ∧ -2 ^ 31 ≤ value ∧ value < 2 ^ 31 then
    some value
  else none

/-- `get_optional<int>` of a tree's data: `>>` of a stream that holds nothing else. -/
def readInt (data : String) : Option Int :=
  let (negative, text) := takeSign (data.toList.dropWhile isSpace)
  readDigits negative text

def charString (value : Int) : String := String.singleton (Char.ofNat (value % 256).toNat)

/-- The type of a record that is read; no type, or one that is no number, leaves it empty. -/
def readType (data : Option String) : String := ((data.bind readInt).map charString).getD ""

theorem readDigits_singleton {c : Char} {value : Int} (h : readDigits false [c] = some value) :
    48 ≤ c.toNat ∧ c.toNat ≤ 57 ∧ value = ((c.toNat - 48 : Nat) : Int) := by
  cases hdigit : c.isDigit with
  | false => simp [readDigits, hdigit] at h
  | true =>
      have hbounds : 48 ≤ c.toNat ∧ c.toNat ≤ 57 := by
        simpa [Char.isDigit, UInt32.le_iff_toNat_le] using hdigit
      have hvalue : digitsValue [c] = c.toNat - 48 := by simp [digitsValue]
      simp only [readDigits, List.takeWhile_cons, List.dropWhile_cons, hdigit, if_true,
        List.takeWhile_nil, List.dropWhile_nil, Bool.false_eq_true, if_false, hvalue] at h
      obtain ⟨-, heq⟩ := Option.ite_none_right_eq_some.mp h
      exact ⟨hbounds.1, hbounds.2, (Option.some.inj heq).symm⟩

theorem readInt_singleton {c : Char} {value : Int}
    (h : readInt (String.singleton c) = some value) :
    48 ≤ c.toNat ∧ c.toNat ≤ 57 ∧ value = ((c.toNat - 48 : Nat) : Int) := by
  have hempty (negative : Bool) : readDigits negative [] = none := by simp [readDigits]
  simp only [readInt, String.toList_singleton, List.dropWhile_cons, List.dropWhile_nil] at h
  cases hspace : isSpace c with
  | true =>
      rw [hspace, if_pos rfl, takeSign, hempty] at h
      · cases h
      · nofun
      · nofun
  | false =>
      rw [hspace, if_neg Bool.false_ne_true] at h
      unfold takeSign at h
      split at h
      · rename_i text heq
        obtain rfl := (List.cons.inj heq).2
        rw [hempty] at h
        cases h
      · rename_i text heq
        obtain rfl := (List.cons.inj heq).2
        rw [hempty] at h
        cases h
      · exact readDigits_singleton h

theorem toNat_ofNat {n : Nat} (h : n < 256) : (Char.ofNat n).toNat = n := by
  rw [Char.ofNat, dif_pos (.inl (by omega))]
  rfl

/-- No string but the empty one is read back as a type: a digit becomes another character. -/
theorem readType_eq_iff (data : String) : readType (some data) = data ↔ data = "" := by
  constructor
  · intro h
    cases hread : readInt data with
    | none => simpa [readType, hread] using h.symm
    | some value =>
        have hdata : charString value = data := by simpa [readType, hread] using h
        rw [charString] at hdata
        rw [← hdata] at hread
        obtain ⟨h48, h57, hvalue⟩ := readInt_singleton hread
        rw [toNat_ofNat (by omega)] at h48 h57 hvalue
        omega
  · rintro rfl
    decide

/-! ## `loadFileInfosFromStr` -/

namespace FileInfo

variable (p : Platform)

def load (tree : Ptree) : FileInfo :=
  { readFields p tree {} with type := readType (tree.getString? "type") }

end FileInfo

variable (p : Platform)

/-- The elements of `files`, if the text can be read and has any such member. -/
def filesOf (fileInfos : Bytes) : Option (List Ptree) := do
  let pt ← p.readJson fileInfos
  let files ← pt.child? "files"
  return files.children.map Prod.snd

/-- `loadFileInfosFromStr`; the vector is only added to. -/
def loadFileInfosFromStr (fileInfos : Bytes) (fileInfoVec : List FileInfo) :
    Bool × List FileInfo :=
  match filesOf p fileInfos with
  | none => (false, fileInfoVec)
  | some files => (true, fileInfoVec ++ files.map (FileInfo.load p))

def fileInfosTree (fileInfoVec : List FileInfo) : Ptree :=
  Ptree.empty.putChild "files"
    (fileInfoVec.foldl (fun files f => files.pushBack f.toPtree) Ptree.empty)

/-- `write_json` and `read_json` preserve the tree of the records, and the numbers in it. -/
structure Platform.Preserves (fileInfoVec : List FileInfo) : Prop where
  json : ∃ text, p.writeJson (fileInfosTree fileInfoVec) = some text ∧
    p.readJson text = some (fileInfosTree fileInfoVec)
  numbers : ∀ f ∈ fileInfoVec, p.readUInt64 (toString f.modifyTime) = some f.modifyTime ∧
    p.readUInt64 (toString f.filesize) = some f.filesize

theorem children_foldl_pushBack (fileInfoVec : List FileInfo) (files : Ptree) :
    (fileInfoVec.foldl (fun files f => files.pushBack f.toPtree) files).children =
      files.children ++ fileInfoVec.map fun f => ("", f.toPtree) := by
  induction fileInfoVec generalizing files with
  | nil => exact (List.append_nil _).symm
  | cons f rest ih =>
      rw [List.foldl_cons, ih, List.map_cons]
      exact List.append_assoc _ [_] _

variable {p}

theorem filesOf_write {fileInfoVec : List FileInfo} (h : p.Preserves fileInfoVec) :
    filesOf p (writeFileInfos2Str p fileInfoVec) = some (fileInfoVec.map FileInfo.toPtree) := by
  obtain ⟨text, hwrite, hread⟩ := h.json
  have htext : writeFileInfos2Str p fileInfoVec = text := congrArg (Option.getD · []) hwrite
  have hfiles := children_foldl_pushBack fileInfoVec Ptree.empty
  rw [filesOf, htext, hread]
  simp only [fileInfosTree, Ptree.putChild, Ptree.putChildren, Ptree.child?, Ptree.empty,
    Ptree.leaf, Ptree.children, Option.bind_eq_bind, Option.bind_some, List.lookup_cons_self]
  simp only [Ptree.children, Ptree.empty, Ptree.leaf, List.nil_append] at hfiles
  rw [hfiles, List.map_map]
  rfl

theorem readFields_toPtree {f : FileInfo}
    (hnumbers : p.readUInt64 (toString f.modifyTime) = some f.modifyTime ∧
      p.readUInt64 (toString f.filesize) = some f.filesize) :
    FileInfo.readFields p f.toPtree {} = f := by
  have hchildren : f.toPtree.children =
      [("modify_time", .leaf (toString f.modifyTime)), ("type", .leaf f.type),
        ("md5", .leaf f.md5), ("save_path", .leaf f.savePath),
        ("remotefile_url", .leaf f.remotefileUrl), ("version", .leaf f.version),
        ("filename", .leaf f.filename), ("filesize", .leaf (toString f.filesize))] := rfl
  simp [FileInfo.readFields, Ptree.getString?, Ptree.child?, hchildren, List.lookup_cons, Ptree.data,
    Ptree.leaf, hnumbers]

theorem load_toPtree {f : FileInfo}
    (hnumbers : p.readUInt64 (toString f.modifyTime) = some f.modifyTime ∧
      p.readUInt64 (toString f.filesize) = some f.filesize) :
    FileInfo.load p f.toPtree = { f with type := readType (some f.type) } := by
  rw [FileInfo.load, readFields_toPtree hnumbers]
  rfl

/-- The type is the field that changes on the way. -/
theorem load_write {fileInfoVec : List FileInfo} (h : p.Preserves fileInfoVec) :
    loadFileInfosFromStr p (writeFileInfos2Str p fileInfoVec) [] =
      (true, fileInfoVec.map fun f => { f with type := readType (some f.type) }) := by
  rw [loadFileInfosFromStr, filesOf_write h]
  simp only [List.nil_append, List.map_map]
  congr 1
  apply List.map_congr_left
  intro f hf
  exact load_toPtree (h.numbers f hf)

/-- Records that were written are read back as they were if and only if none of them has a type. -/
theorem load_write_iff {fileInfoVec : List FileInfo} (h : p.Preserves fileInfoVec) :
    loadFileInfosFromStr p (writeFileInfos2Str p fileInfoVec) [] = (true, fileInfoVec) ↔
      ∀ f ∈ fileInfoVec, f.type = "" := by
  have hsame (f : FileInfo) : { f with type := readType (some f.type) } = f ↔ f.type = "" := by
    rw [← readType_eq_iff f.type]
    constructor
    · exact congrArg FileInfo.type
    · intro htype
      rw [htype]
  rw [load_write h, Prod.mk.injEq, and_iff_right rfl]
  calc fileInfoVec.map (fun f => { f with type := readType (some f.type) }) = fileInfoVec
    _ ↔ fileInfoVec.map (fun f => { f with type := readType (some f.type) }) =
          fileInfoVec.map id := by rw [List.map_id]
    _ ↔ ∀ f ∈ fileInfoVec, { f with type := readType (some f.type) } = id f := List.map_inj_left
    _ ↔ ∀ f ∈ fileInfoVec, f.type = "" := forall₂_congr fun f _ => hsame f

/-! ## Two records -/

def readingPlatform (trees : List Ptree) : Platform :=
  { samplePlatform with
    readJson := fun text => trees.find? fun tree => tree.jsonBytes = text
    readUInt64 := fun data => (readInt data).map UInt64.ofInt }

def sampleRecord (type : String) : FileInfo :=
  { filesize := 1, type := type, md5 := "0cc175b9c0f1b6a831c399e269772661", savePath := "/d/x"
    remotefileUrl := "download/1/x", filename := "x" }

theorem preserves_reading {trees : List Ptree} {fileInfoVec : List FileInfo}
    (hread : (trees.find? fun tree => tree.jsonBytes = (fileInfosTree fileInfoVec).jsonBytes) =
      some (fileInfosTree fileInfoVec))
    (hnumbers : ∀ f ∈ fileInfoVec, f.modifyTime = 0 ∧ f.filesize = 1) :
    (readingPlatform trees).Preserves fileInfoVec where
  json := ⟨_, rfl, hread⟩
  numbers f hf := by
    have hzero : (readInt (toString (0 : UInt64))).map UInt64.ofInt = some 0 := by decide +kernel
    have hone : (readInt (toString (1 : UInt64))).map UInt64.ofInt = some 1 := by decide +kernel
    obtain ⟨htime, hsize⟩ := hnumbers f hf
    rw [htime, hsize]
    exact ⟨hzero, hone⟩

theorem preserves_sampleRecord (type : String) :
    (readingPlatform [fileInfosTree [sampleRecord type]]).Preserves [sampleRecord type] := by
  refine preserves_reading (List.find?_cons_of_pos (decide_eq_true rfl)) fun f hf => ?_
  rw [List.mem_singleton.mp hf]
  exact ⟨rfl, rfl⟩

theorem load_write_sampleRecord :
    loadFileInfosFromStr (readingPlatform [fileInfosTree [sampleRecord ""]])
        (writeFileInfos2Str (readingPlatform [fileInfosTree [sampleRecord ""]]) [sampleRecord ""])
        [] = (true, [sampleRecord ""]) :=
  (load_write_iff (preserves_sampleRecord "")).mpr fun _ hf => List.mem_singleton.mp hf ▸ rfl

/-- A record of type `1` comes back with the character of code 1 for its type. -/
theorem load_write_changes_type :
    ¬ ∀ (p : Platform) (fileInfoVec : List FileInfo), p.Preserves fileInfoVec →
      loadFileInfosFromStr p (writeFileInfos2Str p fileInfoVec) [] = (true, fileInfoVec) := by
  intro h
  have hsame := h _ _ (preserves_sampleRecord "1")
  rw [load_write (preserves_sampleRecord "1")] at hsame
  have htypes := congrArg (fun result => result.2.map FileInfo.type) hsame
  exact absurd htypes (by decide +kernel)

/-! ## `checkFileInfos` -/

inductive Verdict
  | kept
  | erased
  | raised
deriving DecidableEq, Repr

section

variable (p : Platform) (disk : Disk String UInt8) (directory : String → Bool)

/-- The body of the loop, for the path at which the file is looked for.  The size of a directory
is an exception. -/
def checkFile (path : String) (f : FileInfo) : Verdict :=
  match disk.file (p.canon path) with
  | none => if directory (p.canon path) then .raised else .erased
  | some _ =>
      match getFileInfo p disk path {} with
      | none => .raised
      | some found =>
          if found.filesize ≠ f.filesize ∨ iequals found.md5 f.md5 = false then .erased else .kept

/-- `checkFileInfos`; an exception ends the loop. -/
def checkFileInfos : List FileInfo → Bool × List FileInfo
  | [] => (true, [])
  | f :: rest =>
      match checkFile p disk directory f.remotefileUrl f with
      | .raised => (false, f :: rest)
      | .erased => checkFileInfos rest
      | .kept => ((checkFileInfos rest).1, f :: (checkFileInfos rest).2)

def isKept (f : FileInfo) : Bool := checkFile p disk directory f.remotefileUrl f = .kept

def isChecked (f : FileInfo) : Bool := checkFile p disk directory f.remotefileUrl f ≠ .raised

def intact (f : FileInfo) : Bool :=
  (disk.file (p.canon f.savePath)).any fun content =>
    UInt64.ofNat content.length == f.filesize && iequals (p.md5 content) f.md5

/-- Up to the first exception the loop filters, and from there on it does nothing. -/
theorem checkFileInfos_snd (fileInfoVec : List FileInfo) :
    (checkFileInfos p disk directory fileInfoVec).2 =
      (fileInfoVec.takeWhile (isChecked p disk directory)).filter (isKept p disk directory) ++
        fileInfoVec.dropWhile (isChecked p disk directory) := by
  induction fileInfoVec with
  | nil => rfl
  | cons f rest ih =>
      rw [checkFileInfos]
      cases hverdict : checkFile p disk directory f.remotefileUrl f with
      | raised => simp [isChecked, hverdict]
      | erased => simp [isChecked, isKept, hverdict, ih]
      | kept => simp [isChecked, isKept, hverdict, ih]

end

theorem checkFileInfos_eq_self_iff (disk : Disk String UInt8) (directory : String → Bool)
    (fileInfoVec : List FileInfo) :
    (checkFileInfos p disk directory fileInfoVec).2 = fileInfoVec ↔
      ∀ f ∈ fileInfoVec.takeWhile (isChecked p disk directory),
        isKept p disk directory f = true := by
  rw [checkFileInfos_snd, ← List.filter_eq_self]
  constructor
  · intro h
    nth_rewrite 3 [← List.takeWhile_append_dropWhile (p := isChecked p disk directory)
      (l := fileInfoVec)] at h
    exact List.append_cancel_right h
  · intro h
    rw [h, List.takeWhile_append_dropWhile]

theorem checkFileInfos_sublist (disk : Disk String UInt8) (directory : String → Bool)
    (fileInfoVec : List FileInfo) :
    ((checkFileInfos p disk directory fileInfoVec).2).Sublist fileInfoVec := by
  rw [checkFileInfos_snd]
  nth_rewrite 3 [← List.takeWhile_append_dropWhile (p := isChecked p disk directory)
    (l := fileInfoVec)]
  exact List.filter_sublist.append (List.Sublist.refl _)

theorem filter_append_eq_filter {α : Type*} {kept wanted : α → Bool} {front back : List α} :
    front.filter kept ++ back = (front ++ back).filter wanted ↔
      (∀ x ∈ front, kept x = wanted x) ∧ ∀ x ∈ back, wanted x = true := by
  constructor
  · intro h
    have hwanted : ∀ x ∈ front.filter kept ++ back, wanted x = true := by
      intro x hx
      rw [h] at hx
      exact (List.mem_filter.mp hx).2
    have hback : ∀ x ∈ back, wanted x = true :=
      fun x hx => hwanted x (List.mem_append_right _ hx)
    refine ⟨?_, hback⟩
    rw [List.filter_append, List.filter_eq_self.mpr hback] at h
    have hfront : front.filter kept = front.filter wanted := List.append_cancel_right h
    intro x hx
    have hmem : x ∈ front.filter kept ↔ x ∈ front.filter wanted := by rw [hfront]
    rw [List.mem_filter, List.mem_filter, and_iff_right hx, and_iff_right hx] at hmem
    exact Bool.eq_iff_iff.mpr hmem
  · rintro ⟨hfront, hback⟩
    rw [List.filter_append, List.filter_eq_self.mpr hback, List.filter_congr hfront]

/-- The check keeps the records of the intact files, and only them, exactly if this holds: up to
the first record that it cannot check, a file is found under the server's path when it is intact
where it was downloaded to, and from that record on all files are intact. -/
theorem checkFileInfos_iff (p : Platform) (disk : Disk String UInt8) (directory : String → Bool)
    (fileInfoVec : List FileInfo) :
    (checkFileInfos p disk directory fileInfoVec).2 = fileInfoVec.filter (intact p disk) ↔
      (∀ f ∈ fileInfoVec.takeWhile (isChecked p disk directory),
        isKept p disk directory f = intact p disk f) ∧
      ∀ f ∈ fileInfoVec.dropWhile (isChecked p disk directory), intact p disk f = true := by
  have hsplit : fileInfoVec.filter (intact p disk) =
      (fileInfoVec.takeWhile (isChecked p disk directory) ++
        fileInfoVec.dropWhile (isChecked p disk directory)).filter (intact p disk) := by
    rw [List.takeWhile_append_dropWhile]
  rw [checkFileInfos_snd, hsplit, filter_append_eq_filter]

/-- A downloaded file that is intact, and a client that has no `download/` directory. -/
def sampleDisk : Disk String UInt8 := ⟨fun name => if name = "/d/x" then some [0x61] else none⟩

theorem check_forgets_intact :
    ¬ ∀ (p : Platform) (disk : Disk String UInt8) (directory : String → Bool)
      (fileInfoVec : List FileInfo),
      (checkFileInfos p disk directory fileInfoVec).2 = fileInfoVec.filter (intact p disk) := by
  intro h
  have hsame := h samplePlatform sampleDisk (fun _ => false) [sampleRecord "1"]
  exact absurd hsame (by decide +kernel)

end CloudEdgePush.Client
