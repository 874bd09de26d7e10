import Mathlib.Tactic.Common

/-!
# JSON values in Lua

What `cjson` decodes to.  A Lua value is an `Option Json`, where `none` is `nil`; a number is
kept as the text that `tostring` gives, and a string has one `Char` for each byte.  Indexing
raises on everything but tables and strings, and a string has no field of the names used here.
-/

namespace CloudEdgePush.Server

inductive Json
  | null
  | bool (b : Bool)
  | num (text : String)
  | str (s : String)
  | arr (elements : List Json)
  | obj (members : List (String × Json))
deriving Repr, Inhabited

namespace Json

/-- `v.key`; the outer `none` is a Lua error. -/
def index (v : Option Json) (key : String) : Option (Option Json) :=
  match v with
  | some (obj members) => some (members.lookup key)
  | some (arr _) => some none
  | some (str _) => some none
  | _ => none

def truthy : Option Json → Bool
  | none => false
  | some (bool b) => b
  | some _ => true

/-- The types of value that a shared dictionary stores. -/
def storable : Json → Bool
  | str _ => true
  | num _ => true
  | bool _ => true
  | _ => false

/-- `a == b`, for values from different sources: tables are never the same. -/
def luaEq : Option Json → Option Json → Bool
  | none, none => true
  | some null, some null => true
  | some (bool a), some (bool b) => a == b
  | some (num a), some (num b) => a == b
  | some (str a), some (str b) => a == b
  | _, _ => false

def concatText : Option Json → Option String
  | some (str s) => some s
  | some (num text) => some text
  | _ => none

def ofBytes (text : List UInt8) : Json :=
  str (String.ofList (text.map fun b => Char.ofNat b.toNat))

/-- `t.key = v`, on the members of a table; `nil` removes the member. -/
def setMember (members : List (String × Json)) (key : String) (v : Option Json) :
    List (String × Json) :=
  members.filter (fun m => m.1 != key) ++ v.toList.map (Prod.mk key)

theorem lookup_filter_ne {members : List (String × Json)} {key other : String}
    (h : other ≠ key) :
    (members.filter fun m => m.1 != key).lookup other = members.lookup other := by
  induction members with
  | nil => rfl
  | cons m members ih =>
      obtain ⟨k, v⟩ := m
      by_cases hkey : k = key
      · subst hkey
        have hother : (other == k) = false := by simpa using h
        simpa [List.lookup_cons, hother] using ih
      · simp [hkey, List.lookup_cons, ih]

theorem lookup_filter_self (members : List (String × Json)) (key : String) :
    (members.filter fun m => m.1 != key).lookup key = none := by
  simp only [List.lookup_eq_none_iff, List.mem_filter, bne_iff_ne]
  intro m hm hsame
  exact hm.2 hsame.symm

@[simp] theorem lookup_setMember_self (members : List (String × Json)) (key : String)
    (v : Option Json) : (setMember members key v).lookup key = v := by
  rw [setMember, List.lookup_append, lookup_filter_self]
  cases v with
  | none => rfl
  | some v => simp

theorem lookup_setMember_of_ne {members : List (String × Json)} {key other : String}
    (h : other ≠ key) (v : Option Json) :
    (setMember members key v).lookup other = members.lookup other := by
  have hother : (other == key) = false := by simpa using h
  have hlast : (v.toList.map (Prod.mk key)).lookup other = none := by
    cases v with
    | none => rfl
    | some v => simp [List.lookup_cons, hother]
  rw [setMember, List.lookup_append, lookup_filter_ne h, hlast, Option.or_none]

theorem luaEq_self {v : Json} (h : v.storable = true) : luaEq (some v) (some v) = true := by
  cases v with
  | str s => simp [luaEq]
  | num text => simp [luaEq]
  | bool b => simp [luaEq]
  | null => cases h
  | arr elements => cases h
  | obj members => cases h

theorem eq_of_luaEq {a b : Option Json} (h : luaEq a b = true) : a = b := by
  cases a with
  | none => cases b <;> simp_all [luaEq]
  | some a =>
      cases b with
      | none => cases a <;> simp_all [luaEq]
      | some b => cases a <;> cases b <;> simp_all [luaEq]

end Json

/-- The encoder and decoder of `cjson.safe`; `none` is `nil` and an error. -/
structure Cjson where
  decode : List UInt8 → Option Json
  encode : Json → Option (List UInt8)

namespace Cjson

def field (cjson : Cjson) (text : List UInt8) (key : String) : Option Json :=
  (Json.index (cjson.decode text) key).getD none

/-- Strings, numbers and booleans in a table survive being encoded and decoded. -/
def ReadsBack (cjson : Cjson) : Prop :=
  ∀ members text, cjson.encode (.obj members) = some text → ∀ key v,
    members.lookup key = some v → v.storable = true → cjson.field text key = some v

/-- `cjson` on the tables whose texts are known, and on the empty table. -/
def ofTable (table : List (List UInt8 × List (String × Json))) : Cjson where
  decode text := (table.lookup text).map .obj
  encode
    | .obj members =>
        (table.find? fun entry =>
          members.all fun m => Json.luaEq (entry.2.lookup m.1) (some m.2)).map Prod.fst
    | .arr [] => some [0x7b, 0x7d]
    | _ => none

theorem readsBack_ofTable {table : List (List UInt8 × List (String × Json))}
    (hkeys : (table.map Prod.fst).Nodup) : (ofTable table).ReadsBack := by
  intro members text hencode key v hlookup hstorable
  obtain ⟨⟨text, known⟩, hfind, rfl⟩ := Option.map_eq_some_iff.mp hencode
  have hall := List.find?_some hfind
  obtain ⟨before, after, rfl, -⟩ := List.lookup_eq_some_iff.mp hlookup
  have hsame : known.lookup key = some v := by
    apply Json.eq_of_luaEq
    exact List.all_eq_true.mp hall (key, v) (by simp)
  have hdecode : table.lookup text = some known := by
    obtain ⟨front, back, rfl⟩ := List.append_of_mem (List.mem_of_find?_eq_some hfind)
    refine List.lookup_eq_some_iff.mpr ⟨front, back, rfl, ?_⟩
    intro entry hentry
    simp only [List.map_append, List.map_cons, List.nodup_append, List.mem_map] at hkeys
    have hne := hkeys.2.2 entry.1 ⟨entry, hentry, rfl⟩ text List.mem_cons_self
    simpa using hne.symm
  simp [field, ofTable, hdecode, Json.index, hsame]

end Cjson

def sampleText (s : String) : List UInt8 := s.toList.map fun c => UInt8.ofNat c.toNat

end CloudEdgePush.Server
