import CloudEdgePush.Server.UploadPush
import CloudEdgePush.Server.UploadStore

/-!
# Zip archives

What `zzlib.filelist` takes for an archive: entries with a local file header, one behind the other,
and something else behind them, which is usually the central directory.

* `filelist_eq_some_iff`  — these byte strings have a list of names, and no others;
* `archived_of_run`       — an upload request records the names that are in the archive.
-/

namespace CloudEdgePush.Server.Zzlib

open CloudEdgePush.Lib CloudEdgePush.Lib.LittleEndian

/-! ## The format -/

/-- A local file header that `zzlib` supports, and what it is the header of. -/
structure Entry where
  version : UInt16
  flag : UInt16
  method : UInt16
  time : UInt16
  date : UInt16
  crc : UInt32
  /-- The size of the file that was compressed. -/
  usize : UInt32
  name : List UInt8
  extra : List UInt8
  data : List UInt8
  not_encrypted : flag.toNat.testBit 0 = false
  no_descriptor : flag.toNat.testBit 3 = false
  method_eq : method.toNat = 8 ∨ method.toNat = 0
  name_lt : name.length < 2 ^ 16
  extra_lt : extra.length < 2 ^ 16
  data_lt : data.length < 2 ^ 32

def signature : List UInt8 := toLE 4 0x04034b50

namespace Entry

def header (e : Entry) : List UInt8 :=
  signature ++ (toLE 2 e.version.toNat ++ (toLE 2 e.flag.toNat ++ (toLE 2 e.method.toNat ++
    (toLE 2 e.time.toNat ++ (toLE 2 e.date.toNat ++ (toLE 4 e.crc.toNat ++ (toLE 4 e.data.length ++
      (toLE 4 e.usize.toNat ++ (toLE 2 e.name.length ++ toLE 2 e.extra.length)))))))))

def bytes (e : Entry) : List UInt8 := e.header ++ (e.name ++ (e.extra ++ e.data))

theorem length_header (e : Entry) : e.header.length = 30 := rfl

theorem length_bytes (e : Entry) :
    e.bytes.length = 30 + e.name.length + e.extra.length + e.data.length := by
  rw [bytes, List.length_append, List.length_append, List.length_append, length_header]
  omega

end Entry

structure Ends (tail : List UInt8) : Prop where
  length_le : 4 ≤ tail.length
  other : tail.take 4 ≠ signature

/-! ## Fields -/

def halfAt (s : List UInt8) (i : Nat) : Nat := ofLE ((s.drop i).take 2)

section

variable (s : List UInt8) (i k : Nat)

theorem byte_eq : Lua.byte s (i + 1 + k) = (s.drop i)[k]? := by
  rw [Nat.add_right_comm, Lua.byte_succ, List.getElem?_drop]

theorem int2le_eq : int2le s (i + 1 + k) =
    if k + 2 ≤ (s.drop i).length then some (halfAt (s.drop i) k) else none := by
  have hlength : ((s.drop i).drop k).length = (s.drop i).length - k := List.length_drop
  have hget (n : Nat) : (s.drop i)[k + n]? = ((s.drop i).drop k)[n]? := List.getElem?_drop.symm
  have hfirst : (s.drop i)[k]? = ((s.drop i).drop k)[0]? := hget 0
  rw [int2le, halfAt, byte_eq, Nat.add_assoc, byte_eq, hget 1, hfirst]
  rcases hdrop : (s.drop i).drop k with _ | ⟨a, _ | ⟨b, rest⟩⟩
  all_goals
    rw [hdrop] at hlength
    simp only [List.length_cons, List.length_nil] at hlength
  · exact (if_neg (by omega)).symm
  · exact (if_neg (by omega)).symm
  · rw [if_pos (by omega)]
    simp [ofLE]
    omega

theorem int4le_eq : int4le s (i + 1 + k) =
    if k + 4 ≤ (s.drop i).length then some (wordAt (s.drop i) k) else none := by
  have hlength : ((s.drop i).drop k).length = (s.drop i).length - k := List.length_drop
  have hget (n : Nat) : (s.drop i)[k + n]? = ((s.drop i).drop k)[n]? := List.getElem?_drop.symm
  have hfirst : (s.drop i)[k]? = ((s.drop i).drop k)[0]? := hget 0
  rw [int4le, wordAt, byte_eq, Nat.add_assoc, byte_eq, Nat.add_assoc, byte_eq, Nat.add_assoc,
    byte_eq, hget 1, hget 2, hget 3, hfirst]
  rcases hdrop : (s.drop i).drop k with _ | ⟨a, _ | ⟨b, _ | ⟨c, _ | ⟨d, rest⟩⟩⟩⟩
  all_goals
    rw [hdrop] at hlength
    simp only [List.length_cons, List.length_nil] at hlength
  · exact (if_neg (by omega)).symm
  · exact (if_neg (by omega)).symm
  · exact (if_neg (by omega)).symm
  · exact (if_neg (by omega)).symm
  · rw [if_pos (by omega)]
    simp [ofLE]
    omega

end

theorem drop_half {s : List UInt8} {i : Nat} (h : i + 2 ≤ s.length) :
    s.drop i = toLE 2 (halfAt s i) ++ s.drop (i + 2) := by
  have hbytes : toLE 2 (halfAt s i) = (s.drop i).take 2 :=
    toLE_ofLE (by rw [List.length_take, List.length_drop]; omega)
  rw [hbytes, ← List.drop_drop, List.take_append_drop]

theorem drop_word {s : List UInt8} {i : Nat} (h : i + 4 ≤ s.length) :
    s.drop i = toLE 4 (wordAt s i) ++ s.drop (i + 4) := by
  have hbytes : toLE 4 (wordAt s i) = (s.drop i).take 4 :=
    toLE_ofLE (by rw [List.length_take, List.length_drop]; omega)
  rw [hbytes, ← List.drop_drop, List.take_append_drop]

theorem halfAt_lt (s : List UInt8) (i : Nat) : halfAt s i < 2 ^ 16 := by
  have hlt := ofLE_lt ((s.drop i).take 2)
  have hpow : 256 ^ ((s.drop i).take 2).length ≤ 256 ^ 2 :=
    Nat.pow_le_pow_right (by decide) (List.length_take_le _ _)
  exact Nat.lt_of_lt_of_le hlt hpow

theorem wordAt_lt (s : List UInt8) (i : Nat) : wordAt s i < 2 ^ 32 := by
  have hlt := ofLE_lt ((s.drop i).take 4)
  have hpow : 256 ^ ((s.drop i).take 4).length ≤ 256 ^ 4 :=
    Nat.pow_le_pow_right (by decide) (List.length_take_le _ _)
  exact Nat.lt_of_lt_of_le hlt hpow

theorem halfAt_of_drop {s rest : List UInt8} {i n : Nat} (hn : n < 2 ^ 16)
    (h : s.drop i = toLE 2 n ++ rest) : halfAt s i = n := by
  rw [halfAt, h, List.take_left' (length_toLE 2 n)]
  exact ofLE_toLE_of_lt hn

theorem wordAt_of_drop {s rest : List UInt8} {i n : Nat} (hn : n < 2 ^ 32)
    (h : s.drop i = toLE 4 n ++ rest) : wordAt s i = n := by
  rw [wordAt, h, List.take_left' (length_toLE 4 n)]
  exact ofLE_toLE_of_lt hn

/-! ## One turn -/

theorem entryAt_succ (s : List UInt8) (i : Nat) :
    entryAt s (i + 1) =
      if (s.drop i).length < 4 then none
      else if wordAt (s.drop i) 0 ≠ 0x04034b50 then some none
      else if (s.drop i).length < 30 then none
      else if (halfAt (s.drop i) 6).testBit 0 then none
      else if halfAt (s.drop i) 8 ≠ 8 ∧ halfAt (s.drop i) 8 ≠ 0 then none
      else if (halfAt (s.drop i) 6).testBit 3 then none
      else some (some (((s.drop i).drop 30).take (halfAt (s.drop i) 26),
        i + 1 + 30 + halfAt (s.drop i) 26 + halfAt (s.drop i) 28 + wordAt (s.drop i) 18)) := by
  have hname : Lua.sub s ((i + 1 : Nat) + 30) ((i + 1 : Nat) + 29 + halfAt (s.drop i) 26) =
      ((s.drop i).drop 30).take (halfAt (s.drop i) 26) := by
    have hsub := Lua.sub_of_pos s (i := i + 1 + 30) (by omega) (i + 30 + halfAt (s.drop i) 26)
    have hstart : i + 1 + 30 - 1 = i + 30 := by omega
    rw [hstart, List.drop_take, Nat.add_sub_cancel_left, ← List.drop_drop] at hsub
    rw [← hsub]
    congr 1
  have hfirst := int4le_eq s i 0
  unfold entryAt
  rw [hfirst]
  by_cases hfour : (s.drop i).length < 4
  · rw [if_pos hfour, if_neg (by omega)]
    rfl
  · rw [if_neg hfour, if_pos (by omega), Option.bind_eq_bind, Option.bind_some]
    by_cases hsignature : wordAt (s.drop i) 0 = 0x04034b50
    · rw [if_pos hsignature, if_neg (not_not.mpr hsignature), int2le_eq, int2le_eq, int4le_eq,
        int4le_eq, int2le_eq, int2le_eq]
      by_cases hheader : (s.drop i).length < 30
      · -- at the latest the length of the extra field is missing
        rw [if_pos hheader, Option.eq_none_iff_forall_ne_some]
        intro entry hentry
        simp only [Option.bind_eq_some_iff] at hentry
        obtain ⟨flag, -, method, -, crc, -, csize, -, namelen, -, extlen, hextlen, -⟩ := hentry
        rw [if_neg (by omega)] at hextlen
        cases hextlen
      · rw [if_neg hheader, if_pos (by omega), if_pos (by omega), if_pos (by omega),
          if_pos (by omega), if_pos (by omega), if_pos (by omega)]
        simp only [Option.bind_some, hname]
    · rw [if_neg hsignature, if_pos hsignature]

theorem entryAt_bytes (e : Entry) (rest : List UInt8) :
    entryAt (e.bytes ++ rest) 1 = some (some (e.name, e.bytes.length + 1)) := by
  have hlength : ¬(e.bytes ++ rest).length < 30 := by
    rw [List.length_append, e.length_bytes]
    omega
  have hhead : wordAt (e.bytes ++ rest) 0 = 0x04034b50 := wordAt_of_drop (by decide) rfl
  have hflag : halfAt (e.bytes ++ rest) 6 = e.flag.toNat := halfAt_of_drop e.flag.toNat_lt rfl
  have hmethod : halfAt (e.bytes ++ rest) 8 = e.method.toNat :=
    halfAt_of_drop e.method.toNat_lt rfl
  have hdata : wordAt (e.bytes ++ rest) 18 = e.data.length := wordAt_of_drop e.data_lt rfl
  have hname : halfAt (e.bytes ++ rest) 26 = e.name.length := halfAt_of_drop e.name_lt rfl
  have hextra : halfAt (e.bytes ++ rest) 28 = e.extra.length := halfAt_of_drop e.extra_lt rfl
  have hdrop : (e.bytes ++ rest).drop 30 = e.name ++ (e.extra ++ e.data ++ rest) :=
    List.append_assoc e.name (e.extra ++ e.data) rest
  have hmethods : ¬(e.method.toNat ≠ 8 ∧ e.method.toNat ≠ 0) := by
    have := e.method_eq
    omega
  rw [entryAt_succ _ 0, List.drop_zero, if_neg (by omega), if_neg (not_not.mpr hhead),
    if_neg hlength, hflag, hmethod, hdata, hname, hextra, e.not_encrypted, e.no_descriptor, hdrop,
    List.take_left, e.length_bytes, if_neg Bool.false_ne_true, if_neg hmethods,
    if_neg Bool.false_ne_true]
  congr 3
  omega

theorem entryAt_ends {tail : List UInt8} (h : Ends tail) : entryAt tail 1 = some none := by
  have hlength := h.length_le
  have hhead : wordAt tail 0 ≠ 0x04034b50 := by
    intro hhead
    apply h.other
    rw [signature, ← hhead, wordAt, List.drop_zero, toLE_ofLE]
    rw [List.length_take]
    omega
  rw [entryAt_succ _ 0, List.drop_zero, if_neg (by omega), if_pos hhead]

theorem ends_of_entryAt {s : List UInt8} (h : entryAt s 1 = some none) : Ends s := by
  rw [entryAt_succ _ 0, List.drop_zero] at h
  obtain ⟨hlength, h⟩ := Option.ite_none_left_eq_some.mp h
  refine ⟨Nat.le_of_not_lt hlength, fun hhead => ?_⟩
  have hword : wordAt s 0 = 0x04034b50 := by
    rw [wordAt, List.drop_zero, hhead]
    rfl
  rw [if_neg (not_not.mpr hword)] at h
  obtain ⟨-, h⟩ := Option.ite_none_left_eq_some.mp h
  obtain ⟨-, h⟩ := Option.ite_none_left_eq_some.mp h
  obtain ⟨-, h⟩ := Option.ite_none_left_eq_some.mp h
  obtain ⟨-, h⟩ := Option.ite_none_left_eq_some.mp h
  cases h

theorem eq_fields {s : List UInt8} (h : 30 ≤ s.length) :
    s = toLE 4 (wordAt s 0) ++ (toLE 2 (halfAt s 4) ++ (toLE 2 (halfAt s 6) ++
      (toLE 2 (halfAt s 8) ++ (toLE 2 (halfAt s 10) ++ (toLE 2 (halfAt s 12) ++
        (toLE 4 (wordAt s 14) ++ (toLE 4 (wordAt s 18) ++ (toLE 4 (wordAt s 22) ++
          (toLE 2 (halfAt s 26) ++ (toLE 2 (halfAt s 28) ++ s.drop 30)))))))))) := by
  rw [← drop_half (by omega), ← drop_half (by omega), ← drop_word (by omega),
    ← drop_word (by omega), ← drop_word (by omega), ← drop_half (by omega),
    ← drop_half (by omega), ← drop_half (by omega), ← drop_half (by omega),
    ← drop_half (by omega), ← drop_word (by omega), List.drop_zero]

/-- What is found at the start of a string that has all the data is an entry. -/
theorem exists_entry {s name : List UInt8} {next : Nat}
    (h : entryAt s 1 = some (some (name, next))) (hnext : next ≤ s.length + 1) :
    ∃ (e : Entry) (rest : List UInt8), s = e.bytes ++ rest ∧ e.name = name := by
  rw [entryAt_succ _ 0, List.drop_zero] at h
  obtain ⟨-, h⟩ := Option.ite_none_left_eq_some.mp h
  split at h
  · cases h
  · rename_i hhead
    obtain ⟨hlength, h⟩ := Option.ite_none_left_eq_some.mp h
    obtain ⟨hencrypted, h⟩ := Option.ite_none_left_eq_some.mp h
    obtain ⟨hmethod, h⟩ := Option.ite_none_left_eq_some.mp h
    obtain ⟨hdescriptor, h⟩ := Option.ite_none_left_eq_some.mp h
    obtain ⟨hname, hend⟩ := Prod.mk.inj (Option.some.inj (Option.some.inj h))
    have hhalf (i : Nat) : (UInt16.ofNat (halfAt s i)).toNat = halfAt s i :=
      UInt16.toNat_ofNat_of_lt' (halfAt_lt s i)
    have hword (i : Nat) : (UInt32.ofNat (wordAt s i)).toNat = wordAt s i :=
      UInt32.toNat_ofNat_of_lt' (wordAt_lt s i)
    have hleft : (s.drop 30).length = s.length - 30 := List.length_drop
    let behind := (s.drop 30).drop (halfAt s 26)
    have hnames : ((s.drop 30).take (halfAt s 26)).length = halfAt s 26 := by
      rw [List.length_take]
      omega
    have hextras : (behind.take (halfAt s 28)).length = halfAt s 28 := by
      rw [List.length_take, List.length_drop]
      omega
    have hdatas : ((behind.drop (halfAt s 28)).take (wordAt s 18)).length = wordAt s 18 := by
      rw [List.length_take, List.length_drop, List.length_drop]
      omega
    let e : Entry :=
      { version := UInt16.ofNat (halfAt s 4)
        flag := UInt16.ofNat (halfAt s 6)
        method := UInt16.ofNat (halfAt s 8)
        time := UInt16.ofNat (halfAt s 10)
        date := UInt16.ofNat (halfAt s 12)
        crc := UInt32.ofNat (wordAt s 14)
        usize := UInt32.ofNat (wordAt s 22)
        name := (s.drop 30).take (halfAt s 26)
        extra := behind.take (halfAt s 28)
        data := (behind.drop (halfAt s 28)).take (wordAt s 18)
        not_encrypted := by rw [hhalf]; exact Bool.eq_false_iff.mpr hencrypted
        no_descriptor := by rw [hhalf]; exact Bool.eq_false_iff.mpr hdescriptor
        method_eq := by rw [hhalf]; omega
        name_lt := by rw [hnames]; exact halfAt_lt s 26
        extra_lt := by rw [hextras]; exact halfAt_lt s 28
        data_lt := by rw [hdatas]; exact wordAt_lt s 18 }
    refine ⟨e, (behind.drop (halfAt s 28)).drop (wordAt s 18), ?_, hname⟩
    have hheader : e.header ++ s.drop 30 = s := by
      conv_rhs => rw [eq_fields (Nat.le_of_not_lt hlength), not_not.mp hhead]
      simp only [Entry.header, e, hhalf, hword, hnames, hextras, hdatas, List.append_assoc]
      rfl
    rw [Entry.bytes, List.append_assoc, List.append_assoc, List.append_assoc,
      List.take_append_drop, List.take_append_drop, List.take_append_drop]
    exact hheader.symm

/-! ## The list -/

theorem entryAt_drop (s : List UInt8) (i : Nat) :
    entryAt s (i + 1) =
      (entryAt (s.drop i) 1).map (Option.map fun entry => (entry.1, i + entry.2)) := by
  rw [entryAt_succ, entryAt_succ _ 0, List.drop_zero]
  simp only [apply_ite (Option.map _), Option.map_none, Option.map_some, Nat.add_assoc,
    Nat.zero_add]

theorem filelistFrom_drop (s : List UInt8) (fuel i : Nat) :
    filelistFrom s fuel (i + 1) = filelistFrom (s.drop i) fuel 1 := by
  induction fuel generalizing i s with
  | zero => rfl
  | succ fuel ih =>
      rw [filelistFrom, filelistFrom, entryAt_drop]
      cases hentry : entryAt (s.drop i) 1 with
      | none => rfl
      | some entry =>
          cases entry with
          | none => rfl
          | some entry =>
              obtain ⟨name, next⟩ := entry
              obtain ⟨n, rfl⟩ := Nat.exists_eq_add_of_lt (entryAt_next hentry)
              have hrest : i + (1 + n + 1) = i + (n + 1) + 1 := by omega
              dsimp only [Option.map_some]
              rw [hrest, ih s, Nat.add_comm 1 n, ih (s.drop i), List.drop_drop]

theorem filelist_of_entry {s name : List UInt8} {n : Nat}
    (h : entryAt s 1 = some (some (name, n + 1))) :
    filelist s = (filelist (s.drop n)).map (name :: ·) := by
  have hlength : s.length ≠ 0 := by
    intro hzero
    rw [List.length_eq_zero_iff.mp hzero] at h
    cases h
  obtain ⟨fuel, hfuel⟩ := Nat.exists_eq_succ_of_ne_zero hlength
  have hnext := entryAt_next h
  have hless : (s.drop n).length ≤ fuel := by
    rw [List.length_drop]
    omega
  obtain ⟨more, rfl⟩ := Nat.exists_eq_add_of_le hless
  rw [filelist, hfuel, filelistFrom, h]
  dsimp only
  rw [filelistFrom_drop, filelistFrom_fuel (by omega), filelist]

theorem filelist_bytes (e : Entry) (rest : List UInt8) :
    filelist (e.bytes ++ rest) = (filelist rest).map (e.name :: ·) := by
  rw [filelist_of_entry (entryAt_bytes e rest), List.drop_left]

theorem filelist_ends {tail : List UInt8} (h : Ends tail) : filelist tail = some [] := by
  obtain ⟨fuel, hfuel⟩ := Nat.exists_eq_succ_of_ne_zero (n := tail.length)
    (by have := h.length_le; omega)
  rw [filelist, hfuel, filelistFrom, entryAt_ends h]

theorem cases_of_filelist {s : List UInt8} {names : List (List UInt8)}
    (h : filelist s = some names) :
    (Ends s ∧ names = []) ∨ ∃ (e : Entry) (rest : List UInt8) (more : List (List UInt8)),
      s = e.bytes ++ rest ∧ filelist rest = some more ∧ names = e.name :: more := by
  cases s with
  | nil => cases h
  | cons b s =>
      cases hentry : entryAt (b :: s) 1 with
      | none =>
          rw [filelist, List.length_cons, filelistFrom, hentry] at h
          cases h
      | some entry =>
          cases entry with
          | none =>
              rw [filelist, List.length_cons, filelistFrom, hentry] at h
              exact .inl ⟨ends_of_entryAt hentry, (Option.some.inj h).symm⟩
          | some entry =>
              obtain ⟨name, next⟩ := entry
              obtain ⟨n, rfl⟩ := Nat.exists_eq_succ_of_ne_zero
                (Nat.ne_zero_of_lt (entryAt_next hentry))
              rw [filelist_of_entry hentry] at h
              obtain ⟨more, hmore, rfl⟩ := Option.map_eq_some_iff.mp h
              -- a list ends with four bytes that are no header, so all the data is there
              have hlt : n < (b :: s).length := by
                by_contra hge
                rw [List.drop_of_length_le (Nat.le_of_not_lt hge)] at hmore
                cases hmore
              obtain ⟨e, rest, hs, rfl⟩ := exists_entry hentry (by omega)
              rw [hs, entryAt_bytes] at hentry
              obtain ⟨-, hn⟩ := Prod.mk.inj (Option.some.inj (Option.some.inj hentry))
              rw [hs, ← Nat.succ.inj hn, List.drop_left] at hmore
              exact .inr ⟨e, rest, more, hs, hmore, rfl⟩

/-- The byte strings that have a list are the archives, and the list is that of the names. -/
theorem filelist_eq_some_iff {s : List UInt8} {names : List (List UInt8)} :
    filelist s = some names ↔
      ∃ (es : List Entry) (tail : List UInt8), s = es.flatMap Entry.bytes ++ tail ∧ Ends tail ∧
        names = es.map Entry.name := by
  constructor
  · intro h
    induction names generalizing s with
    | nil =>
        rcases cases_of_filelist h with ⟨htail, -⟩ | ⟨e, rest, more, -, -, hnames⟩
        · exact ⟨[], s, rfl, htail, rfl⟩
        · cases hnames
    | cons name names ih =>
        rcases cases_of_filelist h with ⟨-, hnames⟩ | ⟨e, rest, more, rfl, hmore, hnames⟩
        · cases hnames
        · obtain ⟨rfl, rfl⟩ := List.cons.inj hnames
          obtain ⟨es, tail, rfl, htail, rfl⟩ := ih hmore
          refine ⟨e :: es, tail, ?_, htail, rfl⟩
          rw [List.flatMap_cons, List.append_assoc]
  · rintro ⟨es, tail, rfl, htail, rfl⟩
    induction es with
    | nil => exact filelist_ends htail
    | cons e es ih =>
        rw [List.flatMap_cons, List.append_assoc, filelist_bytes, ih]
        rfl

/-- An archive that is cut off before something else follows its entries has no list. -/
theorem filelist_cut_off (es : List Entry) (e : Entry) (n : Nat) :
    filelist (es.flatMap Entry.bytes ++ e.bytes.take n) = none := by
  induction es with
  | cons e' es ih =>
      rw [List.flatMap_cons, List.append_assoc, filelist_bytes, ih]
      rfl
  | nil =>
      rw [List.flatMap_nil, List.nil_append, Option.eq_none_iff_forall_ne_some]
      intro names hnames
      rcases cases_of_filelist hnames with ⟨hends, -⟩ | ⟨e', rest, more, hs, hmore, -⟩
      · -- the first four bytes are those of the header
        have hfour : 4 ≤ n := hends.length_le.trans (List.length_take_le _ _)
        apply hends.other
        rw [List.take_take, Nat.min_eq_left hfour]
        rfl
      · -- the header says how long the entry is
        have hwhole : e.bytes = e'.bytes ++ (rest ++ e.bytes.drop n) := by
          rw [← List.append_assoc, ← hs, List.take_append_drop]
        have hentry := entryAt_bytes e []
        rw [List.append_nil, hwhole, entryAt_bytes, ← hwhole] at hentry
        obtain ⟨-, hlength⟩ := Prod.mk.inj (Option.some.inj (Option.some.inj hentry))
        have hlengths := congrArg List.length hs
        rw [List.length_append] at hlengths
        have hshort := List.length_take_le' n e.bytes
        have hnil : rest = [] := List.length_eq_zero_iff.mp (by omega)
        rw [hnil] at hmore
        cases hmore

end CloudEdgePush.Server.Zzlib

namespace CloudEdgePush.Server.ServiceUpload

open CloudEdgePush.Lib
open ServicePushfile (entries)

/-! ## Uploads -/

section

variable {ν : Type} [DecidableEq ν] {h : Host ν} {r : Request} {s s' : Store ν} {f f' : Json}
  {fs fs' : List Json} {filename : String} {v : Attached}

/-- An entry is that of an archive: the digest and the size are those of the archive, and
`zip_info` is the text of its names. -/
structure Archived (h : Host ν) (es : List Zzlib.Entry) (tail : List UInt8) (f : Json) : Prop where
  ends : Zzlib.Ends tail
  md5 : Json.index (some f) "md5" =
    some (some (.str (h.md5 (es.flatMap Zzlib.Entry.bytes ++ tail))))
  filesize : Json.index (some f) "filesize" =
    some (some (.num (toString (es.flatMap Zzlib.Entry.bytes ++ tail).length)))
  zipInfo : Json.index (some f) "zip_info" =
    some ((h.cjson.encode (.arr (es.map fun e => Json.ofBytes e.name))).map Json.ofBytes)

omit [DecidableEq ν] in
theorem archived_of_update {env : Env} {disk : Disk ν UInt8} {url : String}
    {members updated : List (String × Json)} (hzip : getExtension filename = some "zip")
    (hupdate : updateFileinfo h env disk filename url members = some updated) :
    ∃ es tail, Archived h es tail (.obj updated) := by
  cases hfile : disk.file (h.canon url) with
  | none =>
      rw [updateFileinfo_of_none hfile (.inr hzip)] at hupdate
      cases hupdate
  | some content =>
      obtain ⟨hmd5, hsize⟩ := lookup_updateFileinfo hfile hupdate
      simp only [updateFileinfo, hfile, decompress, Option.some_or, Option.map_some,
        Option.bind_eq_bind, Option.bind_some, if_pos hzip] at hupdate
      obtain ⟨names, hnames, hupdated⟩ := Option.bind_eq_some_iff.mp hupdate
      obtain ⟨es, tail, rfl, hends, rfl⟩ := Zzlib.filelist_eq_some_iff.mp hnames
      have hzipInfo := congrArg (List.lookup "zip_info") (Option.some.inj hupdated)
      rw [Json.lookup_setMember_self, List.map_map] at hzipInfo
      exact ⟨es, tail, hends, congrArg some hmd5, congrArg some hsize, congrArg some hzipInfo.symm⟩

theorem archived_of_loop {i : Nat} (hloop : loop h r i s fs = (.returned fs', s'))
    (hmem : (f, f') ∈ fs.zip fs') (hattached : attachedTo r.form f = some (some (filename, v)))
    (hzip : getExtension filename = some "zip") : ∃ es tail, Archived h es tail f' := by
  induction fs generalizing i s fs' with
  | nil => cases hmem
  | cons g gs ih =>
      obtain ⟨g', gs', s₁, rfl, hturn, hrest⟩ := loop_returned_cons hloop
      rcases List.mem_cons.mp hmem with heq | hmem
      · obtain ⟨rfl, rfl⟩ := Prod.mk.inj heq
        cases turned_of_turn hturn with
        | skipped hnone =>
            rw [hattached] at hnone
            cases hnone
        | stored hf hattached' hpath htmp hupdate hkey hencode =>
            rw [hattached] at hattached'
            obtain ⟨rfl, rfl⟩ := Prod.mk.inj (Option.some.inj (Option.some.inj hattached'))
            exact archived_of_update hzip hupdate
      · exact ih hrest hmem

/-- Every file `*.zip` of a request that returns is an archive, and the entry that is recorded and
returned for it lists its names. -/
theorem archived_of_run (hrun : run h s r = (.returned fs', s'))
    (hmem : (f, f') ∈ (entries r.form.filesInfo).zip fs')
    (hattached : attachedTo r.form f = some (some (filename, v)))
    (hzip : getExtension filename = some "zip") : ∃ es tail, Archived h es tail f' := by
  obtain ⟨stored, hloop, -⟩ := returned_of_run hrun
  exact archived_of_loop hloop hmem hattached hzip

end

/-! ## An archive with one file -/

namespace Archive

def entry : Zzlib.Entry where
  version := 10
  flag := 0
  method := 0
  time := 0
  date := 0
  crc := 0xe8b7be43
  usize := 1
  name := [0x61]
  extra := []
  data := [0x61]
  not_encrypted := rfl
  no_descriptor := rfl
  method_eq := .inr rfl
  name_lt := by decide
  extra_lt := by decide
  data_lt := by decide

def content : List UInt8 := entry.bytes ++ sampleZip

def md5 : String := "a9d9531172a8b625b3e0fc69deeb17b0"

def record : List (String × Json) :=
  [("type", .str "t"), ("filename", .str "a.zip"), ("remotefile_url", .str "download/t/a.zip"),
    ("save_path", .str "download/t/a.zip"), ("md5", .str md5), ("modify_time", .num "1700000000"),
    ("filesize", .num "36"), ("zip_info", .str "[\"a\"]")]

def recordText : List UInt8 :=
  ["\x7b\"type\":\"t\",", "\"filename\":\"a.zip\",", "\"remotefile_url\":",
    "\"download\\/t\\/a.zip\",", "\"save_path\":", "\"download\\/t\\/a.zip\",",
    "\"md5\":\"" ++ md5 ++ "\",", "\"modify_time\":1700000000,", "\"filesize\":36,",
    "\"zip_info\":\"[\\\"a\\\"]\"\x7d"].flatMap sampleText

def cjson : Cjson :=
  { Cjson.ofTable [(recordText, record)] with
    encode := fun
      | .arr [.str "a"] => some (sampleText "[\"a\"]")
      | v => (Cjson.ofTable [(recordText, record)]).encode v }

def host : Host String := ⟨cjson, id, fun _ => md5, fun _ disk => disk, sampleUnqlite⟩

end Archive

open Archive in
theorem archived_of_run_one : ∃ f' s',
    run host sampleStore (sampleRequest content) = (.returned [f'], s') ∧
      Json.index (some f') "zip_info" = some (some (.str "[\"a\"]")) ∧
      ∃ es tail, Archived host es tail f' := by
  have hdone : ∃ updated, Json.setMember updated "zip_info" (some (.str "[\"a\"]")) = updated ∧
      (run host sampleStore (sampleRequest content)).1 = .returned [.obj updated] := by
    refine ⟨_, ?_, rfl⟩
    rfl
  obtain ⟨updated, hinfo, hreturned⟩ := hdone
  refine ⟨.obj updated, _, Prod.ext hreturned rfl, ?_, ?_⟩
  · rw [Json.index, ← hinfo, Json.lookup_setMember_self]
  · exact archived_of_run (f := .obj [("type", .str "t"), ("filename", .str "a.zip")])
      (Prod.ext hreturned rfl) List.mem_cons_self rfl (by decide +kernel)

end CloudEdgePush.Server.ServiceUpload
