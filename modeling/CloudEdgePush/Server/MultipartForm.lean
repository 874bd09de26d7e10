import CloudEdgePush.Server.MultipartBody
import CloudEdgePush.Server.ServiceUpload

/-!
# What a form holds

`multipart` puts every file under its name and every field under its name, with its own content.
-/

namespace CloudEdgePush.Server.RestyPost

open CloudEdgePush.Lib CloudEdgePush.Lib.LuaPattern RestyUpload

variable {τ : Type} {env : Env τ}

/-! ## Tables -/

theorem lookup_replace {α β : Type} [BEq α] [LawfulBEq α] [DecidableEq α]
    (t : List (α × β)) (key other : α) (v : β) :
    (t.map fun e => if e.1 = key then (e.1, v) else e).lookup other =
      if other = key then (t.lookup key).map fun _ => v else t.lookup other := by
  induction t with
  | nil => simp
  | cons e t ih =>
      obtain ⟨k, old⟩ := e
      rw [List.map_cons]
      by_cases hk : k = key
      · subst hk
        rw [if_pos rfl, List.lookup_cons, List.lookup_cons, List.lookup_cons, ih]
        by_cases hother : other = k
        · simp [hother]
        · have hne : (other == k) = false := beq_eq_false_iff_ne.mpr hother
          simp [hother, hne]
      · rw [if_neg hk, List.lookup_cons, List.lookup_cons, List.lookup_cons, ih]
        have hkey : (key == k) = false := beq_eq_false_iff_ne.mpr (Ne.symm hk)
        by_cases hother : other = key
        · simp [hother, hkey]
        · simp [hother]

theorem lookup_insert {β : Type} (t : List (List UInt8 × β)) (key other : List UInt8) (v : β) :
    (insert t key v).lookup other = if other = key then some v else t.lookup other := by
  unfold insert
  cases hkey : t.lookup key with
  | some old =>
      rw [if_pos Option.isSome_some, lookup_replace, hkey]
      rfl
  | none =>
      rw [if_neg (by simp), List.lookup_append]
      by_cases hother : other = key
      · simp [hother, hkey]
      · have hne : (other == key) = false := beq_eq_false_iff_ne.mpr hother
        simp [hother, List.lookup_cons, hne]

theorem modify_last {α : Type} (xs : List α) (x : α) (g : α → α) :
    (xs ++ [x]).modify xs.length g = xs ++ [g x] := by
  induction xs with
  | nil => rfl
  | cons y xs ih => exact congrArg (y :: ·) ih

/-! ## One part -/

def Part.saved (env : Env τ) (i : Nat) (p : Part) : Saved :=
  ⟨p.filename.getD [], env.tmpName i, p.content, p.type, some p.content.length⟩

namespace Multi

variable (st : Multi τ)

def addFile (env : Env τ) (p : Part) (filename : List UInt8) : Multi τ :=
  { st with
    saved := st.saved ++ [p.saved env st.named]
    files := insert st.files p.name st.saved.length
    attached := insert st.attached p.name (attach (st.attached.lookup p.name) st.saved.length)
    handler := some ⟨st.saved.length, false⟩
    key := some p.name
    value := some filename
    named := st.named + 1 }

def valueOf (content : List UInt8) : Option (List UInt8) := if content = [] then none else some content

theorem header_disposition (data : List UInt8) :
    st.header env (text "Content-Disposition") data = some (st.disposition env data) := by
  have hkey : lower (text "Content-Disposition") = text "content-disposition" := by decide
  have hother : ¬text "content-disposition" = text "content-type" := by decide
  simp [header, hkey, hother]

theorem header_type (data : List UInt8) :
    st.header env (text "Content-Type") data =
      if st.handler.isSome then st.contentType data else some st := by
  have hkey : lower (text "Content-Type") = text "content-type" := by decide
  have hother : ¬text "content-type" = text "content-disposition" := by decide
  simp [header, hkey, hother]

theorem takes_headers (p : Part) : st.takes env (Part.headerTokens p.headers) =
    match p.type with
    | none => some (st.disposition env p.disposition)
    | some type => (st.disposition env p.disposition).header env (text "Content-Type") type := by
  unfold Part.headers Part.headerTokens
  cases p.type with
  | none => simp [takes, take, header_disposition]
  | some type => simp [takes, take, header_disposition, Option.bind_fun_some]

def opened (env : Env τ) (p : Part) (filename : List UInt8) : Multi τ :=
  { st with
    saved := st.saved ++ [⟨filename, env.tmpName st.named, [], p.type, none⟩]
    files := insert st.files p.name st.saved.length
    handler := some ⟨st.saved.length, true⟩
    key := some p.name
    value := some filename
    named := st.named + 1 }

theorem takes_headers_file {boundary : List UInt8} {p : Part} {filename : List UInt8}
    (hopens : ∀ n, env.opens n = true) (h : p.Sound boundary) (hfilename : p.filename = some filename) :
    st.takes env (Part.headerTokens p.headers) = some (st.opened env p filename) := by
  have hdecode := decodeDisposition_part h
  rw [hfilename] at hdecode
  rw [takes_headers]
  cases htype : p.type with
  | none => simp [disposition, hdecode, hopens, opened, htype]
  | some type =>
      simp [disposition, hdecode, hopens, opened, htype, header_type, contentType, current,
        lookup_insert, modify_last]

theorem takes_file {boundary : List UInt8} {p : Part} {filename : List UInt8}
    (hopens : ∀ n, env.opens n = true) (h : p.Sound boundary) (hfilename : p.filename = some filename) :
    st.takes env p.tokens = some (st.addFile env p filename) := by
  rw [Part.tokens, takes_append, takes_append, takes_headers_file st hopens h hfilename]
  simp [takes, take, opened, body, partEnd, lookup_insert, modify_last, addFile, Part.saved,
    hfilename]

theorem takes_field {boundary : List UInt8} {p : Part} (h : p.Sound boundary)
    (hfilename : p.filename = none) :
    st.takes env p.tokens = (store env { st with
      key := some p.name, value := valueOf p.content, handler := none } p.name).map fun st =>
        { st with key := none, value := none } := by
  have hdecode := decodeDisposition_part h
  rw [hfilename] at hdecode
  have hheaders : st.takes env (Part.headerTokens p.headers) =
      some { st with key := some p.name, value := none, handler := none } := by
    rw [takes_headers]
    cases p.type with
    | none => simp [disposition, hdecode]
    | some type => simp [disposition, hdecode, header_type]
  rw [Part.tokens, takes_append, takes_append, hheaders]
  by_cases hempty : p.content = []
  · simp [takes, take, body, partEnd, valueOf, hempty, Option.bind_fun_some]
  · simp [takes, take, body, partEnd, valueOf, hempty, Option.bind_fun_some]

end Multi

/-! ## All parts -/

def uploads (parts : List Part) : List Part := parts.filter fun p => p.filename.isSome

def places (parts : List Part) (key : List UInt8) : List Nat :=
  ((uploads parts).zipIdx.filter fun e => e.1.name = key).map Prod.snd

def attachedOf : List Nat → Option Attached
  | [] => none
  | [file] => some (.one file)
  | files => some (.many files)

def contents (parts : List Part) (key : List UInt8) : List (List UInt8) :=
  (parts.filter fun p => p.filename.isNone && p.name = key).map Part.content

/-- A second field makes an array, even if it is empty; apart from that empty fields are lost. -/
def fieldOf (contents : List (List UInt8)) : Option (Field τ) :=
  match contents.dropWhile (· = []) with
  | [] => none
  | [value] => some (.str value)
  | value :: values => some (.arr (value :: values.filter (· ≠ [])))

structure Decoded (env : Env τ) (parts : List Part) (st : Multi τ) : Prop where
  named : st.named = (uploads parts).length
  saved : st.saved = (uploads parts).mapIdx (Part.saved env)
  attached : ∀ key, st.attached.lookup key = attachedOf (places parts key)
  fields : ∀ key, key ≠ text "files" → st.fields.lookup key = fieldOf (contents parts key)
  positional : st.positional = (contents parts (text "files")).filter (· ≠ [])

theorem attachedOf_concat (files : List Nat) (file : Nat) :
    attachedOf (files ++ [file]) = some (Multi.attach (attachedOf files) file) := by
  match files with
  | [] => rfl
  | [first] => rfl
  | first :: second :: files => rfl

def addField (env : Env τ) (field : Option (Field τ)) (value : Option (List UInt8)) :
    Option (Field τ) :=
  match field with
  | some (.str first) => some (.arr (first :: value.toList))
  | some (.arr values) => some (.arr (values ++ value.toList))
  | some (.table t) => some (.table (env.append t value))
  | none => value.map .str

theorem fieldOf_concat (env : Env τ) (contents : List (List UInt8)) (content : List UInt8) :
    fieldOf (contents ++ [content]) = addField env (fieldOf contents) (Multi.valueOf content) := by
  unfold fieldOf
  rw [List.dropWhile_append]
  cases hdrop : contents.dropWhile (· = []) with
  | nil =>
      by_cases hempty : content = []
      · simp [hempty, Multi.valueOf, addField]
      · simp [hempty, Multi.valueOf, addField]
  | cons value values =>
      cases values with
      | nil =>
          by_cases hempty : content = []
          · simp [hempty, Multi.valueOf, addField]
          · simp [hempty, Multi.valueOf, addField]
      | cons second values =>
          have hfilter : (second :: (values ++ [content])).filter (· ≠ []) =
              (second :: values).filter (· ≠ []) ++ (Multi.valueOf content).toList := by
            rw [← List.cons_append, List.filter_append]
            by_cases hempty : content = []
            · simp [hempty, Multi.valueOf]
            · simp [hempty, Multi.valueOf]
          simp only [List.isEmpty_cons, Bool.false_eq_true, if_false, List.cons_append, addField,
            hfilter]

theorem store_field (env : Env τ) (st : Multi τ) {key : List UInt8} (hplain : isStructured key = false)
    (hkey : key ≠ text "files") :
    ∃ fields, st.store env key = some { st with fields := fields } ∧ ∀ other,
      fields.lookup other =
        if other = key then addField env (st.fields.lookup key) st.value
        else st.fields.lookup other := by
  unfold Multi.store
  rw [hplain, if_neg Bool.false_ne_true, if_neg hkey]
  refine ⟨_, rfl, fun other => ?_⟩
  cases hfield : st.fields.lookup key with
  | none =>
      cases hvalue : st.value with
      | none =>
          by_cases hother : other = key
          · simp [hother, hfield, addField]
          · simp [hother]
      | some value => simp [lookup_insert, addField]
  | some field =>
      cases field with
      | str first => simp [lookup_insert, addField]
      | arr values => simp [lookup_insert, addField]
      | table t => simp [lookup_insert, addField]

/-- A part may be a file, or a field whose name has no dot and no brackets. -/
def Part.Plain (p : Part) : Prop := p.filename = none → isStructured p.name = false

instance (p : Part) : Decidable p.Plain :=
  inferInstanceAs (Decidable (p.filename = none → isStructured p.name = false))

inductive PartStep (env : Env τ) (p : Part) (st : Multi τ) : Multi τ → Prop
  | file {filename : List UInt8} (hfilename : p.filename = some filename) :
      PartStep env p st (st.addFile env p filename)
  | field {fields : Fields τ} {positional : List (List UInt8)} (hfilename : p.filename = none)
      (hfields : ∀ key, key ≠ text "files" → fields.lookup key =
        if key = p.name then addField env (st.fields.lookup key) (Multi.valueOf p.content)
        else st.fields.lookup key)
      (hpositional : positional = st.positional ++
        if p.name = text "files" then (Multi.valueOf p.content).toList else []) :
      PartStep env p st { st with
        fields := fields, positional := positional, handler := none, key := none, value := none }

theorem takes_part {p : Part} {boundary : List UInt8} (st : Multi τ)
    (hopens : ∀ n, env.opens n = true) (h : p.Sound boundary) (hplain : p.Plain) :
    ∃ st', st.takes env p.tokens = some st' ∧ PartStep env p st st' := by
  cases hfilename : p.filename with
  | some filename => exact ⟨_, Multi.takes_file st hopens h hfilename, .file hfilename⟩
  | none =>
      rw [Multi.takes_field st h hfilename]
      by_cases hname : p.name = text "files"
      · have hstore : Multi.store env { st with
            key := some p.name, value := Multi.valueOf p.content, handler := none } p.name =
            some { st with
              positional := st.positional ++ (Multi.valueOf p.content).toList
              key := some p.name, value := Multi.valueOf p.content, handler := none } := by
          unfold Multi.store
          rw [hplain hfilename, if_neg Bool.false_ne_true, if_pos hname]
        rw [hstore]
        refine ⟨_, rfl, .field hfilename (fun key hkey => ?_) (by rw [if_pos hname])⟩
        rw [if_neg (fun heq => hkey (heq.trans hname))]
      · obtain ⟨fields, hstore, hlookup⟩ := store_field env { st with
          key := some p.name, value := Multi.valueOf p.content, handler := none }
          (hplain hfilename) hname
        rw [hstore]
        refine ⟨_, rfl, .field hfilename (fun key _ => (hlookup key).trans ?_)
          (by rw [if_neg hname, List.append_nil])⟩
        by_cases hkey : key = p.name
        · rw [if_pos hkey, if_pos hkey, hkey]
        · rw [if_neg hkey, if_neg hkey]

theorem takes_parts {I : List Part → Multi τ → Prop} {boundary : List UInt8} {parts : List Part}
    (hopens : ∀ n, env.opens n = true) (hparts : ∀ p ∈ parts, p.Sound boundary)
    (hplain : ∀ p ∈ parts, p.Plain) (hempty : I [] (Multi.empty τ))
    (hstep : ∀ before p st st', I before st → PartStep env p st st' → I (before ++ [p]) st') :
    ∃ st, (Multi.empty τ).takes env (parts.flatMap Part.tokens) = some st ∧ I parts st := by
  suffices hall : ∀ before st, I before st →
      ∃ st', st.takes env (parts.flatMap Part.tokens) = some st' ∧ I (before ++ parts) st' from
    hall [] (Multi.empty τ) hempty
  induction parts with
  | nil => exact fun before st hst => ⟨st, rfl, by rwa [List.append_nil]⟩
  | cons p parts ih =>
      intro before st hst
      obtain ⟨hp, hparts⟩ := List.forall_mem_cons.mp hparts
      obtain ⟨hpPlain, hplain⟩ := List.forall_mem_cons.mp hplain
      obtain ⟨st₁, htake, hpart⟩ := takes_part st hopens hp hpPlain
      obtain ⟨st', htakes, hst'⟩ := ih hparts hplain _ _ (hstep _ _ _ _ hst hpart)
      refine ⟨st', ?_, ?_⟩
      · rw [List.flatMap_cons, Multi.takes_append, htake]
        exact htakes
      · rwa [List.append_assoc] at hst'

theorem uploads_concat (parts : List Part) (p : Part) :
    uploads (parts ++ [p]) = uploads parts ++ if p.filename.isSome then [p] else [] := by
  cases hfilename : p.filename with
  | none => simp [uploads, hfilename]
  | some filename => simp [uploads, hfilename]

theorem contents_concat (parts : List Part) (p : Part) (key : List UInt8) :
    contents (parts ++ [p]) key =
      contents parts key ++ if p.filename = none ∧ p.name = key then [p.content] else [] := by
  by_cases hfield : p.filename = none ∧ p.name = key
  · simp [contents, hfield]
  · rw [if_neg hfield, List.append_nil]
    have hnot : (p.filename.isNone && p.name = key) = false := by
      simpa using hfield
    rw [contents, List.filter_append, List.filter_singleton, hnot]
    simp [contents]

theorem decoded_step {parts : List Part} {p : Part} {st st' : Multi τ} (hst : Decoded env parts st)
    (hstep : PartStep env p st st') : Decoded env (parts ++ [p]) st' := by
  have huploads := uploads_concat parts p
  have hcontents := contents_concat parts p
  cases hstep with
  | @file filename hfilename =>
      rw [hfilename, Option.isSome_some, if_pos rfl] at huploads
      have hsame (key : List UInt8) : contents (parts ++ [p]) key = contents parts key := by
        simpa [hfilename] using hcontents key
      have hlength : st.saved.length = (uploads parts).length := by
        rw [hst.saved, List.length_mapIdx]
      refine ⟨?_, ?_, fun key => ?_, fun key hkey => ?_, ?_⟩
      · rw [huploads, List.length_append, ← hst.named]
        rfl
      · rw [huploads, List.mapIdx_concat, ← hst.saved, ← hst.named]
        rfl
      · show (insert _ _ _).lookup key = _
        rw [lookup_insert, hst.attached, hst.attached, hlength]
        unfold places
        rw [huploads, List.zipIdx_append, List.filter_append, List.map_append]
        by_cases hname : key = p.name
        · simp [hname, attachedOf_concat, List.zipIdx_cons]
        · simp [hname, Ne.symm hname, List.zipIdx_cons]
      · rw [hsame]
        exact hst.fields key hkey
      · rw [hsame]
        exact hst.positional
  | field hfilename hfields hpositional =>
      rw [hfilename, Option.isSome_none, if_neg Bool.false_ne_true, List.append_nil] at huploads
      refine ⟨?_, ?_, fun key => ?_, fun key hkey => ?_, ?_⟩
      · rw [huploads]
        exact hst.named
      · rw [huploads]
        exact hst.saved
      · rw [places, huploads]
        exact hst.attached key
      · rw [hcontents, hfields key hkey]
        by_cases hname : key = p.name
        · rw [if_pos hname, if_pos ⟨hfilename, hname.symm⟩, fieldOf_concat env,
            ← hst.fields key hkey]
        · rw [if_neg hname, if_neg (fun h => hname h.2.symm), List.append_nil]
          exact hst.fields key hkey
      · rw [hcontents, hpositional, List.filter_append, ← hst.positional]
        by_cases hname : p.name = text "files"
        · by_cases hempty : p.content = []
          · simp [hname, hfilename, hempty, Multi.valueOf]
          · simp [hname, hfilename, hempty, Multi.valueOf]
        · simp [hname]

theorem decoded_empty : Decoded env [] (Multi.empty τ) where
  named := rfl
  saved := rfl
  attached _ := rfl
  fields _ _ := rfl
  positional := rfl

/-- Every file and every field of a form is found under its name, with its own content, however
the socket cuts the body into pieces. -/
theorem multipart_formBytes (cut : Cut) (env : Env τ) {parts : List Part} {boundary : List UInt8}
    {size : Nat} {contentType : Option (List UInt8)} (hsent : Sent contentType size boundary parts)
    (hopens : ∀ n, env.opens n = true) (hplain : ∀ p ∈ parts, p.Plain) :
    ∃ st, multipart cut env contentType ⟨formBytes boundary parts, "closed"⟩ size =
        some (.form, st) ∧ Decoded env parts st := by
  obtain ⟨st, htakes, hst⟩ := takes_parts hopens hsent.sound hplain decoded_empty
    fun _ _ _ _ hst hstep => decoded_step hst hstep
  exact ⟨st, multipart_takes hsent htakes, hst⟩

theorem multipart_formBytes_sample : ∃ st,
    multipart Cut.exact sampleEnv Sample.contentType
        ⟨formBytes Sample.boundary Sample.parts, "closed"⟩ 3 = some (.form, st) ∧
      Decoded sampleEnv Sample.parts st :=
  multipart_formBytes Cut.exact sampleEnv Sample.sent (fun _ => rfl) (by decide +kernel)

end CloudEdgePush.Server.RestyPost
