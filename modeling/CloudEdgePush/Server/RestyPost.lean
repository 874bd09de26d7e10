import CloudEdgePush.Server.RestyUpload

/-!
# `resty/post.lua`

`multipart` reads a form piece by piece.  A part with a filename goes to a temporary file, any other
part to the table under its name.  The tables of the uploaded files are shared between `files` and
`m.files`, so they are kept in a list of their own (`saved`) and referred to by their place in it.

A name with a dot or an index in brackets builds nested tables (`structured`); what it makes of the
table is left open, as is the value under such a name (`τ`).
-/

namespace CloudEdgePush.Server.RestyPost

open CloudEdgePush.Lib CloudEdgePush.Lib.LuaPattern CloudEdgePush.Lib.Until RestyUpload

structure Saved where
  name : List UInt8
  tmpName : List UInt8
  content : List UInt8
  type : Option (List UInt8)
  size : Option Nat

/-- `m.files[key]`: one file, or an array. -/
inductive Attached
  | one (file : Nat)
  | many (files : List Nat)
deriving DecidableEq

inductive Field (τ : Type)
  | str (value : List UInt8)
  | arr (values : List (List UInt8))
  | table (t : τ)

structure Handler where
  file : Nat
  isOpen : Bool

abbrev Fields (τ : Type) := List (List UInt8 × Field τ)

structure Env (τ : Type) where
  /-- The results of `self.name`. -/
  tmpName : Nat → List UInt8
  /-- Whether the temporary file can be opened. -/
  opens : Nat → Bool
  structured : Fields τ → List UInt8 → Option (List UInt8) → Option (Fields τ)
  /-- `mk[#mk + 1] = value`. -/
  append : τ → Option (List UInt8) → τ

/-- The variables of `multipart`; `positional` are the values that a field named `files` adds to
`m.files`, and `named` counts the calls of `self.name`. -/
structure Multi (τ : Type) where
  saved : List Saved
  files : List (List UInt8 × Nat)
  attached : List (List UInt8 × Attached)
  positional : List (List UInt8)
  fields : Fields τ
  handler : Option Handler
  key : Option (List UInt8)
  value : Option (List UInt8)
  named : Nat

def Multi.empty (τ : Type) : Multi τ := ⟨[], [], [], [], [], none, none, none, 0⟩

def insert {β : Type} (t : List (List UInt8 × β)) (key : List UInt8) (v : β) :
    List (List UInt8 × β) :=
  if (t.lookup key).isSome then t.map fun e => if e.1 = key then (e.1, v) else e
  else t ++ [(key, v)]

inductive Disposition
  | field (key : List UInt8)
  | nothing
  | file (key name : List UInt8)

def needle : List UInt8 := text "filename=\""

/-- `decode_disposition`, up to the temporary file. -/
def decodeDisposition (data : List UInt8) : Disposition :=
  let namePos : Int := 18
  let lastQuotePos : Int := data.length - 1
  match splitUntil needle data with
  | none => .field (Lua.sub data namePos lastQuotePos)
  | some (before, _) =>
      let filenamePos : Int := before.length + 1
      let field := Lua.sub data namePos (filenamePos - 4)
      let name := Lua.sub data (filenamePos + 10) lastQuotePos
      if name = [] then .nothing else .file field name

def bracketed (s : List UInt8) : Bool :=
  let word := (s.drop 1).takeWhile isWord
  s.head? == some 91 && !word.isEmpty && ((s.drop 1).drop word.length).head? == some 93

/-- `re_find(key, '(\\[\\w+\\])|(\\.)', 'jo')` finds something. -/
def isStructured (key : List UInt8) : Bool := key.tails.any fun s => s.head? == some 46 || bracketed s

namespace Multi

variable {τ : Type} (env : Env τ) (st : Multi τ)

/-- The part of a Content-Disposition header. -/
def disposition (data : List UInt8) : Multi τ :=
  match decodeDisposition data with
  | .nothing => { st with key := none, value := none, handler := none }
  | .field key => { st with key := some key, value := none, handler := none }
  | .file key name =>
      let st := { st with key := some key, value := some name, named := st.named + 1 }
      if env.opens (st.named - 1) then
        { st with
          saved := st.saved ++ [⟨name, env.tmpName (st.named - 1), [], none, none⟩]
          files := insert st.files key st.saved.length
          handler := some ⟨st.saved.length, true⟩ }
      else { st with handler := none }

def current : Option Nat := st.key.bind fun key => st.files.lookup key

/-- `files[key].type = data`; `none` is a Lua error. -/
def contentType (data : List UInt8) : Option (Multi τ) :=
  st.current.map fun file =>
    { st with saved := st.saved.modify file fun saved => { saved with type := some data } }

def header (key data : List UInt8) : Option (Multi τ) :=
  let st := if lower key = text "content-disposition" then st.disposition env data else st
  if st.handler.isSome && lower key = text "content-type" then st.contentType data else some st

/-- A piece of the body; writing to a closed file raises. -/
def body (chunk : List UInt8) : Option (Multi τ) :=
  match st.handler with
  | some handler =>
      if handler.isOpen then
        some { st with saved := st.saved.modify handler.file fun saved =>
          { saved with content := saved.content ++ chunk } }
      else none
  | none =>
      if chunk = [] then some st else some { st with value := some (st.value.getD [] ++ chunk) }

def store (key : List UInt8) : Option (Multi τ) :=
  if isStructured key then
    (env.structured st.fields key st.value).map fun fields => { st with fields := fields }
  else if key = text "files" then
    some { st with positional := st.positional ++ st.value.toList }
  else
    some { st with
      fields :=
        match st.fields.lookup key with
        | some (.str first) => insert st.fields key (.arr (first :: st.value.toList))
        | some (.arr values) => insert st.fields key (.arr (values ++ st.value.toList))
        | some (.table t) => insert st.fields key (.table (env.append t st.value))
        | none =>
            match st.value with
            | some value => insert st.fields key (.str value)
            | none => st.fields }

def attach (attached : Option Attached) (file : Nat) : Attached :=
  match attached with
  | none => .one file
  | some (.one first) => .many [first, file]
  | some (.many files) => .many (files ++ [file])

def partEnd : Option (Multi τ) :=
  match st.handler, st.key with
  | some handler, key =>
      if handler.isOpen then do
        let key ← key
        let file ← st.files.lookup key
        let size := (st.saved[handler.file]?).map fun saved => saved.content.length
        return { st with
          saved := st.saved.modify file fun saved => { saved with size := size }
          handler := some { handler with isOpen := false }
          attached := insert st.attached key (attach (st.attached.lookup key) file) }
      else none
  | none, some key => (st.store env key).map fun st => { st with key := none, value := none }
  | none, none => some st

/-- What the loop makes of a piece of the form; `none` is a Lua error. -/
def take : Token → Option (Multi τ)
  | .header key data _ => st.header env key data
  | .body chunk => st.body chunk
  | .partEnd => st.partEnd env
  | _ => some st

def takes (env : Env τ) : List Token → Multi τ → Option (Multi τ)
  | [], st => some st
  | token :: tokens, st => (st.take env token).bind (takes env tokens)

end Multi

inductive Ending
  | form
  /-- The form could not be read. -/
  | nothing
  | raised
deriving DecidableEq

variable {τ : Type} (cut : Cut) (env : Env τ)

/-- The loop of `multipart`; the outer `none` is a loop that has not ended. -/
def loop : Nat → Form → Multi τ → Option (Ending × Multi τ)
  | 0, _, _ => none
  | fuel + 1, f, st =>
      match f.read cut with
      | none => none
      | some (.failed _, _) => some (.nothing, st)
      | some (.raised, _) => some (.raised, st)
      | some (.eof, _) => some (.form, st)
      | some (token, f) =>
          match st.take env token with
          | none => some (.raised, st)
          | some st => loop fuel f st

/-- `multipart`, of a request with this Content-Type header; the loop has enough turns for any
body (`loop_isSome`). -/
def multipart (contentType : Option (List UInt8)) (sock : Sock) (chunkSize : Nat) :
    Option (Ending × Multi τ) :=
  match getBoundary contentType with
  | none => some (.nothing, Multi.empty τ)
  | some boundary =>
      let form := RestyUpload.new boundary sock chunkSize
      loop cut env (form.left + 1) form (Multi.empty τ)

/-! ## Pieces -/

namespace Multi

variable {env}

theorem takes_append (tokens tokens' : List Token) (st : Multi τ) :
    st.takes env (tokens ++ tokens') = (st.takes env tokens).bind (takes env tokens') := by
  induction tokens generalizing st with
  | nil => rfl
  | cons token tokens ih =>
      rw [List.cons_append, takes, takes]
      cases st.take env token with
      | none => rfl
      | some st => exact ih st

theorem body_append (st : Multi τ) (a b : List UInt8) :
    st.body (a ++ b) = (st.body a).bind (body · b) := by
  cases hhandler : st.handler with
  | some handler =>
      cases hopen : handler.isOpen with
      | false => simp [body, hhandler, hopen]
      | true =>
          simp only [body, hhandler, hopen, if_true, Option.bind_some, List.modify_modify_eq,
            Function.comp_def, List.append_assoc]
  | none =>
      rcases eq_or_ne a [] with rfl | ha
      · simp [body, hhandler]
      · rcases eq_or_ne b [] with rfl | hb
        · simp [body, hhandler, ha]
        · simp [body, hhandler, ha, hb]

/-- The pieces of a body may be joined. -/
theorem takes_bodies {chunks : List (List UInt8)} (hne : chunks ≠ []) (st : Multi τ) :
    st.takes env (chunks.map .body) = st.takes env [.body chunks.flatten] := by
  induction chunks generalizing st with
  | nil => exact absurd rfl hne
  | cons chunk chunks ih =>
      rcases eq_or_ne chunks [] with rfl | hchunks
      · rw [List.flatten_cons, List.flatten_nil, List.append_nil]
        rfl
      · have hjoin := body_append st chunk chunks.flatten
        simp only [takes, take, List.map_cons, List.flatten_cons, hjoin] at ih ⊢
        cases st.body chunk with
        | none => rfl
        | some st => exact ih hchunks st

end Multi

/-! ## The loop -/

variable {cut env} {f f' : Form} {st st' : Multi τ} {t : Token} {fuel : Nat}

theorem loop_step (hread : f.read cut = some (t, f')) (ht : t.goesOn = true)
    (htake : st.take env t = some st') : loop cut env (fuel + 1) f st = loop cut env fuel f' st' := by
  rw [loop, hread]
  cases t with
  | failed err => cases ht
  | raised => cases ht
  | eof => cases ht
  | _ =>
      dsimp only
      rw [htake]

theorem loop_failed {err : Option (List UInt8)} (hread : f.read cut = some (.failed err, f')) :
    loop cut env (fuel + 1) f st = some (.nothing, st) := by
  rw [loop, hread]

theorem loop_raised (hread : f.read cut = some (t, f')) (ht : t.goesOn = true)
    (htake : st.take env t = none) : loop cut env (fuel + 1) f st = some (.raised, st) := by
  rw [loop, hread]
  cases t with
  | failed err => cases ht
  | raised => cases ht
  | eof => cases ht
  | _ =>
      dsimp only
      rw [htake]

theorem loop_congr (hread : f.read cut = f'.read cut) :
    loop cut env fuel f st = loop cut env fuel f' st := by
  cases fuel with
  | zero => rfl
  | succ fuel => rw [loop, loop, hread]

theorem loop_isSome (hf : f.Sane) (hfuel : f.left < fuel) : (loop cut env fuel f st).isSome := by
  induction fuel generalizing f st with
  | zero => cases hfuel
  | succ fuel ih =>
      obtain ⟨⟨t, f'⟩, hread⟩ := Option.isSome_iff_exists.mp (Form.read_isSome cut hf)
      have hnext (ht : t.goesOn = true) (st : Multi τ) : (loop cut env fuel f' st).isSome := by
        obtain ⟨hsane, hless⟩ := Form.progress_read cut hf hread ht
        exact ih hsane (by omega)
      unfold loop
      rw [hread]
      cases t with
      | failed err => rfl
      | raised => rfl
      | eof => rfl
      | _ =>
          dsimp only
          split
          · rfl
          · exact hnext rfl _

theorem loop_add {r : Ending × Multi τ} (h : loop cut env fuel f st = some r) (more : Nat) :
    loop cut env (fuel + more) f st = some r := by
  induction fuel generalizing f st with
  | zero => cases h
  | succ fuel ih =>
      rw [Nat.add_right_comm]
      unfold loop at h ⊢
      split at h
      · cases h
      · rw [← h]
      · rw [← h]
      · rw [← h]
      · split at h
        · exact h
        · exact ih h

/-- With any number of turns that suffices the loop ends in the same way. -/
theorem loop_unique {fuel' : Nat} {r r' : Ending × Multi τ} (h : loop cut env fuel f st = some r)
    (h' : loop cut env fuel' f st = some r') : r = r' := by
  have hsum := loop_add h fuel'
  rw [Nat.add_comm, loop_add h' fuel] at hsum
  exact (Option.some.inj hsum).symm

theorem loop_reads {tokens : List Token} (h : Reads cut f tokens f')
    (htakes : st.takes env tokens = some st') :
    ∃ n, ∀ fuel, loop cut env (fuel + n) f st = loop cut env fuel f' st' := by
  induction h generalizing st with
  | refl f =>
      obtain rfl := Option.some.inj htakes
      exact ⟨0, fun _ => rfl⟩
  | congr hread _ ih =>
      obtain ⟨n, hn⟩ := ih htakes
      exact ⟨n, fun fuel => (loop_congr hread).trans (hn fuel)⟩
  | step hread ht _ ih =>
      obtain ⟨st₁, htake, htakes⟩ := Option.bind_eq_some_iff.mp htakes
      obtain ⟨n, hn⟩ := ih htakes
      exact ⟨n + 1, fun fuel => (loop_step hread ht htake).trans (hn fuel)⟩

def Refused (cut : Cut) (env : Env τ) (f : Form) : Prop :=
  ∀ fuel st st', loop cut env fuel f st ≠ some (.form, st')

theorem refused_of_failed {err : Option (List UInt8)} (hread : f.read cut = some (.failed err, f')) :
    Refused cut env f := by
  intro fuel st st' h
  cases fuel with
  | zero => cases h
  | succ fuel =>
      rw [loop_failed hread] at h
      cases h

theorem Refused.of_reads {tokens : List Token} (h : Refused cut env f')
    (hreads : Reads cut f tokens f') : Refused cut env f := by
  induction hreads with
  | refl f => exact h
  | congr hread _ ih =>
      intro fuel st st'
      rw [loop_congr hread]
      exact ih h fuel st st'
  | @step f _ _ t _ hread ht _ ih =>
      intro fuel st st' hloop
      cases fuel with
      | zero => cases hloop
      | succ fuel =>
          cases htake : st.take env t with
          | some st₁ =>
              rw [loop_step hread ht htake] at hloop
              exact ih h fuel st₁ st' hloop
          | none =>
              rw [loop_raised hread ht htake] at hloop
              cases hloop

/-- Every request is read to an end, whatever its body and its Content-Type are, and in whatever
pieces the socket returns it. -/
theorem multipart_ends (cut : Cut) (env : Env τ) (contentType : Option (List UInt8)) (sock : Sock)
    {chunkSize : Nat} (hsize : 0 < chunkSize) :
    (multipart cut env contentType sock chunkSize).isSome := by
  unfold multipart
  split
  · rfl
  · exact loop_isSome ⟨rfl, hsize⟩ (Nat.lt_succ_self _)

def sampleEnv : Env Unit :=
  ⟨fun n => [UInt8.ofNat n], fun _ => true, fun fields _ _ => some fields, fun t _ => t⟩

theorem multipart_ends_sample :
    (multipart Cut.exact sampleEnv (some (text "form-data; boundary=x")) ⟨dashes, "timeout"⟩
      4096).isSome :=
  multipart_ends Cut.exact sampleEnv _ _ (by decide)

end CloudEdgePush.Server.RestyPost
