import CloudEdgePush.Server.RestyPost

/-!
# Multipart bodies

The body that a client sends for a list of parts (`formBytes`), and where the reader is in it
(`formAt`).  What `multipart` makes of the body does not depend on the pieces in which it is read, and
a body that is cut off is not accepted.
-/

namespace CloudEdgePush.Server.RestyPost

open CloudEdgePush.Lib CloudEdgePush.Lib.LuaPattern CloudEdgePush.Lib.Until RestyUpload

/-! ## The format -/

structure Part where
  name : List UInt8
  filename : Option (List UInt8)
  type : Option (List UInt8)
  content : List UInt8
deriving DecidableEq

def quote : UInt8 := 34

def filenameBytes : Option (List UInt8) → List UInt8
  | none => []
  | some filename => text "; filename=" ++ quote :: (filename ++ [quote])

namespace Part

def disposition (p : Part) : List UInt8 :=
  text "form-data; name=" ++ quote :: (p.name ++ quote :: filenameBytes p.filename)

def headers (p : Part) : List (String × List UInt8) :=
  ("Content-Disposition", p.disposition) :: p.type.toList.map (Prod.mk "Content-Type")

def line (header : String × List UInt8) : List UInt8 := text header.1 ++ text ": " ++ header.2

def headersBytes (headers : List (String × List UInt8)) : List UInt8 :=
  headers.flatMap fun header => line header ++ crlf

theorem headersBytes_cons (header : String × List UInt8) (headers : List (String × List UInt8)) :
    headersBytes (header :: headers) = line header ++ crlf ++ headersBytes headers := rfl

def bytes (p : Part) : List UInt8 := headersBytes p.headers ++ (crlf ++ p.content)

/-- A part that can be sent with this boundary. -/
structure Sound (boundary : List UInt8) (p : Part) : Prop where
  name_cr : 13 ∉ p.name
  name_quote : quote ∉ p.name
  name_end : ¬text "filename=" <:+ p.name
  filename : ∀ filename ∈ p.filename, filename ≠ [] ∧ 13 ∉ filename
  type : ∀ type ∈ p.type, (∃ v ∈ type.head?, isSpace v = false) ∧ 13 ∉ type
  short : ∀ header ∈ p.headers, (line header).length < MAX_LINE_SIZE
  content : ¬crlf ++ dashes ++ boundary <:+: p.content

instance (boundary : List UInt8) (p : Part) : Decidable (p.Sound boundary) :=
  decidable_of_iff (13 ∉ p.name ∧ quote ∉ p.name ∧ ¬text "filename=" <:+ p.name ∧
      (∀ filename ∈ p.filename, filename ≠ [] ∧ 13 ∉ filename) ∧
      (∀ type ∈ p.type, (∃ v ∈ type.head?, isSpace v = false) ∧ 13 ∉ type) ∧
      (∀ header ∈ p.headers, (line header).length < MAX_LINE_SIZE) ∧
      ¬crlf ++ dashes ++ boundary <:+: p.content)
    ⟨fun ⟨h₁, h₂, h₃, h₄, h₅, h₆, h₇⟩ => ⟨h₁, h₂, h₃, h₄, h₅, h₆, h₇⟩,
      fun h => ⟨h.1, h.2, h.3, h.4, h.5, h.6, h.7⟩⟩

end Part

def partsBytes (boundary : List UInt8) : List Part → List UInt8
  | [] => []
  | [p] => p.bytes ++ (crlf ++ dashes ++ boundary) ++ (dashes ++ crlf)
  | p :: parts => p.bytes ++ (crlf ++ dashes ++ boundary) ++ (crlf ++ partsBytes boundary parts)

def formBytes (boundary : List UInt8) (parts : List Part) : List UInt8 :=
  dashes ++ boundary ++ (crlf ++ partsBytes boundary parts)

/-- A request with these parts and this Content-Type header, read in pieces of `size`. -/
structure Sent (contentType : Option (List UInt8)) (size : Nat) (boundary : List UInt8)
    (parts : List Part) : Prop where
  header : getBoundary contentType = some boundary
  size : 0 < size
  cr : 13 ∉ boundary
  nonempty : parts ≠ []
  sound : ∀ p ∈ parts, p.Sound boundary

/-! ## Dispositions -/

theorem sub_middle (before middle after : List UInt8) {i j : Int} (hi : i = before.length + 1)
    (hj : j = before.length + middle.length) : Lua.sub (before ++ middle ++ after) i j = middle := by
  have hi' : i = ((before.length + 1 : Nat) : Int) := by rw [hi]; rfl
  have hj' : j = ((before.length + middle.length : Nat) : Int) := by rw [hj]; rfl
  rw [hi', hj', Lua.sub_of_pos _ (Nat.le_add_left 1 _), ← List.length_append, List.take_left,
    Nat.add_sub_cancel, List.drop_left]

theorem needle_eq : needle = text "filename=" ++ [quote] := by decide

theorem splitUntil_needle {boundary : List UInt8} {p : Part} (h : p.Sound boundary)
    (s : List UInt8) :
    splitUntil needle (text "form-data; name=" ++ quote :: (p.name ++ quote :: s)) =
      (splitUntil needle s).map (Prod.map
        (fun before => text "form-data; name=" ++ quote :: (p.name ++ quote :: before)) id) := by
  rw [needle_eq, splitUntil_marker (by decide) (by decide), if_neg (by decide),
    splitUntil_marker (by decide) h.name_quote, if_neg h.name_end, Option.map_map]
  rfl

theorem decodeDisposition_part {boundary : List UInt8} {p : Part} (h : p.Sound boundary) :
    decodeDisposition p.disposition =
      match p.filename with
      | none => .field p.name
      | some filename => .file p.name filename := by
  have hlength : (text "form-data; name=").length = 16 := by decide
  have hfield (after : List UInt8) {j : Int} (hj : j = 17 + p.name.length) :
      Lua.sub (text "form-data; name=" ++ quote :: (p.name ++ quote :: after)) 18 j = p.name := by
    have hsub := sub_middle (text "form-data; name=" ++ [quote]) p.name (quote :: after)
      (i := 18) (j := j) (by simp [hlength]) (by simp [hlength, hj])
    rwa [List.append_assoc, List.append_assoc, List.singleton_append] at hsub
  unfold decodeDisposition Part.disposition
  rw [splitUntil_needle h]
  cases hfilename : p.filename with
  | none =>
      have hnone : splitUntil needle (filenameBytes none) = none := rfl
      rw [hnone]
      dsimp only [Option.map_none]
      rw [hfield _ (by simp [hlength, filenameBytes]; omega)]
  | some filename =>
      obtain ⟨hne, -⟩ := h.filename filename hfilename
      have hsome : splitUntil needle (filenameBytes (some filename)) =
          some (text "; ", filename ++ [quote]) := by
        rw [needle_eq, filenameBytes, splitUntil_marker (by decide) (by decide), if_pos (by decide)]
        rfl
      have hsplit : filenameBytes (some filename) = text "; " ++ needle ++ (filename ++ [quote]) := by
        rw [filenameBytes, needle_eq]
        rfl
      have htwo : (text "; ").length = 2 := by decide
      have hten : needle.length = 10 := by decide
      rw [hsome]
      dsimp only [Option.map_some, Prod.map]
      rw [hfield _ (by simp [hlength, htwo]; omega)]
      have hdata : text "form-data; name=" ++ quote :: (p.name ++ quote ::
          filenameBytes (some filename)) =
          text "form-data; name=" ++ quote :: (p.name ++ quote :: text "; ") ++ needle ++
            filename ++ [quote] := by
        rw [hsplit]
        simp only [List.append_assoc, List.cons_append]
      rw [hdata, sub_middle _ filename [quote] (by simp [hten]; omega) (by simp; omega), if_neg hne]

/-! ## What the reader returns -/

structure Legible (header : String × List UInt8) : Prop where
  key : text header.1 ≠ []
  colon : ∀ b ∈ text header.1, (b != 58 && b != 32 && b != 9) = true
  value : ∃ v ∈ header.2.head?, isSpace v = false
  cr : 13 ∉ Part.line header
  short : (Part.line header).length < MAX_LINE_SIZE

theorem Part.Sound.legible {boundary : List UInt8} {p : Part} (h : p.Sound boundary) :
    ∀ header ∈ p.headers, Legible header := by
  intro header hheader
  have hshort := h.short header hheader
  rcases List.mem_cons.mp hheader with rfl | hheader
  · have hkey : text "Content-Disposition" ≠ [] ∧
        ∀ b ∈ text "Content-Disposition", (b != 58 && b != 32 && b != 9) = true := by decide +kernel
    refine ⟨hkey.1, hkey.2, ⟨102, rfl, by decide⟩, ?_, hshort⟩
    have hfilename : 13 ∉ filenameBytes p.filename := by
      cases hfile : p.filename with
      | none => exact List.not_mem_nil
      | some filename =>
          have hcr := (h.filename filename hfile).2
          simp [filenameBytes, hcr]
          decide
    have hname := h.name_cr
    simp [Part.line, Part.disposition, hname, hfilename]
    decide
  · obtain ⟨type, htype, rfl⟩ := List.mem_map.mp hheader
    obtain ⟨hvalue, hcr⟩ := h.type type (Option.mem_toList.mp htype)
    have hkey : text "Content-Type" ≠ [] ∧
        ∀ b ∈ text "Content-Type", (b != 58 && b != 32 && b != 9) = true := by decide +kernel
    refine ⟨hkey.1, hkey.2, hvalue, ?_, hshort⟩
    simp [Part.line, hcr]
    decide

theorem no_crlf {s : List UInt8} (h : 13 ∉ s) : ¬crlf <:+: s :=
  fun hin => h (hin.subset List.mem_cons_self)

/-- The reader behind the first boundary; `done` when a boundary has just been seen. -/
def formAt (boundary : List UInt8) (size : Nat) (err : String) (done : Bool) (state : State)
    (inbox : List UInt8) : Form where
  sock := ⟨inbox, err⟩
  size := size
  read2boundary := ⟨crlf ++ dashes ++ boundary, done⟩
  readLine := ⟨crlf, false⟩
  boundary := boundary
  state := state

section Reads

variable (cut : Cut) {boundary : List UInt8} {size : Nat} {err : String} {done : Bool}
  {rest : List UInt8}

/-- The first call has seen the boundary, and the second one ends the preamble. -/
theorem discardPreamble_begin {inbox : List UInt8} (hsize : 0 < size) (fuel : Nat) :
    Form.discardPreamble cut (fuel + 2)
        (RestyUpload.new boundary ⟨dashes ++ boundary ++ inbox, err⟩ size) =
      some (RestyUpload.new boundary ⟨inbox, err⟩ size) := by
  have hcalled : Called ⟨dashes ++ boundary, false⟩ size ⟨dashes ++ boundary ++ inbox, err⟩ [] inbox
      (Reader.call cut ⟨dashes ++ boundary, false⟩ size ⟨dashes ++ boundary ++ inbox, err⟩) :=
    called cut size rfl (splitUntil_here (dashes ++ boundary) inbox)
  unfold Form.discardPreamble Form.callBoundary RestyUpload.new
  dsimp only
  generalize Reader.call cut _ _ _ = result at hcalled
  cases hcalled with
  | whole _ =>
      dsimp only
      unfold Form.discardPreamble Form.callBoundary
      dsimp only
      rw [call_of_done cut size rfl]
  | piece n hn hsize' =>
      rw [List.length_nil] at hn
      omega

theorem read_begin (hsize : 0 < size) :
    (RestyUpload.new boundary ⟨dashes ++ boundary ++ (crlf ++ rest), err⟩ size).read cut =
      (formAt boundary size err false .readingHeader rest).read cut := by
  have hinbox : (RestyUpload.new boundary ⟨crlf ++ rest, err⟩ size).sock.inbox =
      [] ++ crlf ++ rest := rfl
  have hline := Form.discardLine_line cut (f := RestyUpload.new boundary ⟨crlf ++ rest, err⟩ size)
    rfl hinbox (by decide) (by decide)
  show Form.readPreamble cut _ = _
  unfold Form.readPreamble
  have hahead : (RestyUpload.new boundary ⟨dashes ++ boundary ++ (crlf ++ rest), err⟩ size).ahead + 1 =
      2 * (dashes ++ boundary ++ (crlf ++ rest)).length + 2 := rfl
  rw [hahead, discardPreamble_begin cut hsize, Option.map_some, hline]
  rfl

theorem read_header {header : String × List UInt8} (h : Legible header) :
    (formAt boundary size err done .readingHeader (Part.line header ++ crlf ++ rest)).read cut =
      some (.header (text header.1) header.2 (Part.line header),
        formAt boundary size err done .readingHeader rest) := by
  obtain ⟨v, hv, hspace⟩ := h.value
  obtain ⟨value, hvalue⟩ := List.head?_eq_some_iff.mp hv
  have hne : Part.line header ≠ [] := by simp [Part.line, h.key]
  have hline : Part.line header = text header.1 ++ 58 :: 32 :: v :: value := by
    rw [Part.line, hvalue, List.append_assoc]
    rfl
  have hheader : Form.headerOf (text header.1 ++ 58 :: 32 :: v :: value) =
      .header (text header.1) (v :: value) (text header.1 ++ 58 :: 32 :: v :: value) :=
    Form.headerOf_pair h.key h.colon hspace
  rw [← hline, ← hvalue] at hheader
  have hread := Form.readHeader_line cut
    (f := formAt boundary size err done .readingHeader (Part.line header ++ crlf ++ rest)) rfl rfl
    (no_crlf h.cr) h.short hne
  rw [hheader] at hread
  exact congrArg some hread

theorem read_blank :
    (formAt boundary size err done .readingHeader (crlf ++ rest)).read cut =
      (formAt boundary size err done .readingBody rest).read cut :=
  congrArg some (Form.readHeader_blank cut
    (f := formAt boundary size err done .readingHeader (crlf ++ rest)) rfl rfl)

theorem read_next :
    (formAt boundary size err true .readingBody (crlf ++ rest)).read cut =
      some (.partEnd, formAt boundary size err false .readingHeader rest) :=
  congrArg some (Form.readBodyPart_next cut rfl rfl)

theorem read_last :
    (formAt boundary size "closed" true .readingBody (dashes ++ rest)).read cut =
      some (.partEnd, formAt boundary size "closed" false .eof []) :=
  congrArg some (Form.readBodyPart_last cut rfl rfl rfl)

end Reads

/-! ## A whole form -/

namespace Part

def headerTokens (headers : List (String × List UInt8)) : List Token :=
  headers.map fun header => .header (text header.1) header.2 (line header)

def tokens (p : Part) : List Token := headerTokens p.headers ++ [.body p.content] ++ [.partEnd]

end Part

section Reading

variable {cut : Cut} {boundary : List UInt8} {size : Nat} {err : String} {rest : List UInt8}

theorem reads_headers {headers : List (String × List UInt8)}
    (hlegible : ∀ h ∈ headers, Legible h) :
    Reads cut (formAt boundary size err false .readingHeader (Part.headersBytes headers ++ rest))
      (Part.headerTokens headers) (formAt boundary size err false .readingHeader rest) := by
  induction headers with
  | nil => exact .refl _
  | cons header headers ih =>
      obtain ⟨hhere, hlegible⟩ := List.forall_mem_cons.mp hlegible
      rw [Part.headersBytes_cons, List.append_assoc]
      exact .step (read_header cut hhere) rfl (ih hlegible)

theorem split_content (hboundary : 13 ∉ boundary) {content : List UInt8}
    (hcontent : ¬crlf ++ dashes ++ boundary <:+: content) (rest : List UInt8) :
    splitUntil (crlf ++ dashes ++ boundary) (content ++ (crlf ++ dashes ++ boundary) ++ rest) =
      some (content, rest) := by
  have hcr : 13 ∉ 10 :: (dashes ++ boundary) := by
    simp [hboundary]
    decide
  exact splitUntil_append rfl hcr hcontent rest

variable (cut err rest) in
/-- The content is read in pieces: each one leaves less of it in front of the boundary. -/
theorem reads_content (hsize : 0 < size) (hboundary : 13 ∉ boundary) {content : List UInt8}
    (hcontent : ¬crlf ++ dashes ++ boundary <:+: content) :
    ∃ chunks : List (List UInt8), chunks ≠ [] ∧ chunks.flatten = content ∧
      Reads cut
        (formAt boundary size err false .readingBody
          (content ++ (crlf ++ dashes ++ boundary) ++ rest))
        (chunks.map .body) (formAt boundary size err true .readingBody rest) := by
  induction hlength : content.length using Nat.strong_induction_on generalizing content with
  | _ n ih =>
      have hinside := Form.readBodyPart_body cut
        (f := formAt boundary size err false .readingBody
          (content ++ (crlf ++ dashes ++ boundary) ++ rest)) ⟨rfl, rfl⟩
        (split_content hboundary hcontent rest)
      rcases hinside with hread | ⟨m, hm, hmn, hread⟩
      · exact ⟨[content], List.cons_ne_nil _ _, by simp,
          .step (congrArg some hread) rfl (.refl _)⟩
      · have hlater : ¬crlf ++ dashes ++ boundary <:+: content.drop m :=
          fun h => hcontent (h.trans (List.drop_suffix m content).isInfix)
        have hless : (content.drop m).length < n := by
          have hm' : size ≤ m := hm
          rw [List.length_drop]
          omega
        obtain ⟨chunks, -, hflatten, hreads⟩ := ih _ hless hlater rfl
        have hdrop : content.drop m ++ (crlf ++ dashes ++ boundary) ++ rest =
            (content ++ (crlf ++ dashes ++ boundary) ++ rest).drop m := by
          rw [List.append_assoc, List.append_assoc content, List.drop_append_of_le_length hmn]
        rw [hdrop] at hreads
        refine ⟨content.take m :: chunks, List.cons_ne_nil _ _, ?_,
          .step (congrArg some hread) rfl hreads⟩
        rw [List.flatten_cons, hflatten, List.take_append_drop]

variable (cut err rest) in
theorem reads_part {p : Part} (h : p.Sound boundary) (hsize : 0 < size) (hboundary : 13 ∉ boundary) :
    ∃ chunks : List (List UInt8), chunks ≠ [] ∧ chunks.flatten = p.content ∧
      Reads cut
        (formAt boundary size err false .readingHeader
          (p.bytes ++ (crlf ++ dashes ++ boundary) ++ rest))
        (Part.headerTokens p.headers ++ chunks.map .body)
        (formAt boundary size err true .readingBody rest) := by
  obtain ⟨chunks, hne, hflatten, hreads⟩ :=
    reads_content cut err rest hsize hboundary h.content
  refine ⟨chunks, hne, hflatten, ?_⟩
  rw [Part.bytes, List.append_assoc, List.append_assoc, List.append_assoc]
  refine (reads_headers h.legible).trans (.congr (read_blank cut) ?_)
  rw [← List.append_assoc]
  exact hreads

variable (cut) in
theorem reads_parts {parts : List Part} (hne : parts ≠ [])
    (hparts : ∀ p ∈ parts, p.Sound boundary) (hsize : 0 < size) (hboundary : 13 ∉ boundary)
    {τ : Type} (env : Env τ) :
    ∃ tokens,
      Reads cut (formAt boundary size "closed" false .readingHeader (partsBytes boundary parts))
        tokens (formAt boundary size "closed" false .eof []) ∧
      ∀ st : Multi τ, st.takes env tokens = st.takes env (parts.flatMap Part.tokens) := by
  induction parts with
  | nil => exact absurd rfl hne
  | cons p parts ih =>
      obtain ⟨hp, hparts⟩ := List.forall_mem_cons.mp hparts
      -- The part in one piece, in front of any other pieces.
      have hjoin {chunks : List (List UInt8)} (hchunks : chunks ≠ [])
          (hflatten : chunks.flatten = p.content) (tokens : List Token) (st : Multi τ) :
          st.takes env (Part.headerTokens p.headers ++ chunks.map .body ++ .partEnd :: tokens) =
            st.takes env (p.tokens ++ tokens) := by
        rw [← List.singleton_append, ← List.append_assoc, Multi.takes_append,
          Multi.takes_append p.tokens, Part.tokens]
        simp only [Multi.takes_append, Multi.takes_bodies hchunks, hflatten]
      cases parts with
      | nil =>
          obtain ⟨chunks, hchunks, hflatten, hreads⟩ :=
            reads_part cut "closed" (dashes ++ crlf) hp hsize hboundary
          exact ⟨_, hreads.trans (.step (read_last cut) rfl (.refl _)), hjoin hchunks hflatten []⟩
      | cons q parts =>
          obtain ⟨chunks, hchunks, hflatten, hreads⟩ :=
            reads_part cut "closed" (crlf ++ partsBytes boundary (q :: parts)) hp hsize hboundary
          obtain ⟨tokens, hrest, htakes⟩ := ih (List.cons_ne_nil _ _) hparts
          refine ⟨_, hreads.trans (.step (read_next cut) rfl hrest), fun st => ?_⟩
          rw [hjoin hchunks hflatten, Multi.takes_append, List.flatMap_cons, Multi.takes_append]
          exact congrArg _ (funext htakes)

/-- What the loop makes of a form does not depend on how the socket cuts it into pieces. -/
theorem multipart_takes {parts : List Part} {contentType : Option (List UInt8)}
    (hsent : Sent contentType size boundary parts) {τ : Type} {env : Env τ} {st : Multi τ}
    (htakes : (Multi.empty τ).takes env (parts.flatMap Part.tokens) = some st) :
    multipart cut env contentType ⟨formBytes boundary parts, "closed"⟩ size = some (.form, st) := by
  unfold multipart
  rw [hsent.header]
  have hbegin : (RestyUpload.new boundary ⟨formBytes boundary parts, "closed"⟩ size).read cut =
      (formAt boundary size "closed" false .readingHeader (partsBytes boundary parts)).read cut :=
    read_begin cut hsent.size
  obtain ⟨tokens, hreads, hsame⟩ :=
    reads_parts cut hsent.nonempty hsent.sound hsent.size hsent.cr env
  rw [← hsame] at htakes
  obtain ⟨n, hn⟩ := loop_reads (.congr hbegin hreads) htakes
  have hend : loop cut env (1 + n)
      (RestyUpload.new boundary ⟨formBytes boundary parts, "closed"⟩ size) (Multi.empty τ) =
      some (.form, st) := hn 1
  have hsane : (RestyUpload.new boundary ⟨formBytes boundary parts, "closed"⟩ size).Sane :=
    ⟨rfl, hsent.size⟩
  have hsome : (loop cut env _ _ (Multi.empty τ)).isSome :=
    loop_isSome hsane (Nat.lt_succ_self _)
  obtain ⟨r, hr⟩ := Option.isSome_iff_exists.mp hsome
  rw [← loop_unique hr hend]
  exact hr

end Reading

/-! ## A form that is cut off -/

section Refusing

variable {cut : Cut} {boundary : List UInt8} {size : Nat} {err : String} {q rest : List UInt8}
  {τ : Type} {env : Env τ}

theorem refused_noLine (hnone : splitUntil crlf q = none) :
    Refused cut env (formAt boundary size err false .readingHeader q) := by
  obtain ⟨e, f', hread⟩ := Form.readHeader_noLine cut
    (f := formAt boundary size err false .readingHeader q) ⟨rfl, hnone⟩
  exact refused_of_failed (congrArg some hread)

theorem refused_content (hsize : 0 < size) (hnone : splitUntil (crlf ++ dashes ++ boundary) q = none) :
    Refused cut env (formAt boundary size err false .readingBody q) := by
  induction hlength : q.length using Nat.strong_induction_on generalizing q with
  | _ n ih =>
      rcases Form.readBodyPart_starved cut
        (f := formAt boundary size err false .readingBody q) ⟨rfl, rfl⟩ hnone with
        ⟨e, f', hread⟩ | ⟨bytes, m, hm, hmn, hread⟩
      · exact refused_of_failed (congrArg some hread)
      · have hless : (q.drop m).length < n := by
          have hm' : size ≤ m := hm
          have hmn' : m ≤ q.length := hmn
          rw [List.length_drop]
          omega
        have hlater : Refused cut env (formAt boundary size err false .readingBody (q.drop m)) :=
          ih _ hless (splitUntil_drop hnone m) rfl
        exact hlater.of_reads (.step (t := .body bytes) (congrArg some hread) rfl (.refl _))

theorem refused_short (hshort : q.length < 2) :
    Refused cut env (formAt boundary size err true .readingBody q) := by
  obtain ⟨e, f', hread⟩ := Form.readBodyPart_short cut
    (f := formAt boundary size err true .readingBody q) rfl rfl hshort
  exact refused_of_failed (congrArg some hread)

theorem noLine_of_short (line : List UInt8) (hcr : 13 ∉ line) (hq : q <+: line ++ crlf)
    (hlt : q.length < (line ++ crlf).length) : splitUntil crlf q = none := by
  have hsplit : splitUntil crlf (line ++ crlf ++ []) = some (line, []) :=
    splitUntil_append rfl (by decide) (no_crlf hcr) []
  rw [List.append_nil] at hsplit
  rw [List.length_append] at hlt
  exact splitUntil_of_short hsplit hq hlt

theorem refused_headers {headers : List (String × List UInt8)}
    (hlegible : ∀ h ∈ headers, Legible h) (hq : q <+: Part.headersBytes headers)
    (hlt : q.length < (Part.headersBytes headers).length) :
    Refused cut env (formAt boundary size err false .readingHeader q) := by
  induction headers generalizing q with
  | nil => cases hlt
  | cons header headers ih =>
      obtain ⟨hhere, hlegible⟩ := List.forall_mem_cons.mp hlegible
      rw [Part.headersBytes_cons] at hq hlt
      rcases prefix_append_cases hq with ⟨hshort, hlt'⟩ | ⟨q', hq', rfl⟩
      · exact refused_noLine (noLine_of_short _ hhere.cr hshort hlt')
      · rw [List.length_append, @List.length_append _ _ (Part.headersBytes headers),
          Nat.add_lt_add_iff_left] at hlt
        exact (ih hlegible hq' hlt).of_reads (.step (read_header cut hhere) rfl (.refl _))

theorem refused_part {p : Part} (h : p.Sound boundary) (hsize : 0 < size) (hboundary : 13 ∉ boundary)
    (hq : q <+: p.bytes ++ (crlf ++ dashes ++ boundary))
    (hlt : q.length < (p.bytes ++ (crlf ++ dashes ++ boundary)).length) :
    Refused cut env (formAt boundary size err false .readingHeader q) := by
  rw [Part.bytes, List.append_assoc, List.append_assoc] at hq hlt
  rcases prefix_append_cases hq with ⟨hin, hin_lt⟩ | ⟨q₁, hq₁, rfl⟩
  · exact refused_headers h.legible hin hin_lt
  rw [List.length_append, List.length_append, Nat.add_lt_add_iff_left] at hlt
  refine Refused.of_reads ?_ (reads_headers h.legible)
  rcases prefix_append_cases hq₁ with ⟨hin, hin_lt⟩ | ⟨q₂, hq₂, rfl⟩
  · exact refused_noLine (noLine_of_short [] List.not_mem_nil hin hin_lt)
  rw [List.length_append, List.length_append, Nat.add_lt_add_iff_left, List.length_append] at hlt
  refine Refused.of_reads (refused_content hsize ?_) (.congr (read_blank cut) (.refl _))
  have hsplit := split_content hboundary h.content []
  rw [List.append_nil] at hsplit
  exact splitUntil_of_short hsplit hq₂ hlt

/-- It is enough that the last two dashes are missing. -/
theorem refused_parts {parts : List Part} (hparts : ∀ p ∈ parts, p.Sound boundary)
    (hsize : 0 < size) (hboundary : 13 ∉ boundary) (hq : q <+: partsBytes boundary parts)
    (hlt : q.length + 2 < (partsBytes boundary parts).length) :
    Refused cut env (formAt boundary size err false .readingHeader q) := by
  induction parts generalizing q with
  | nil => cases hlt
  | cons p parts ih =>
      obtain ⟨hp, hparts⟩ := List.forall_mem_cons.mp hparts
      cases parts with
      | nil =>
          rw [partsBytes] at hq hlt
          rcases prefix_append_cases hq with ⟨hin, hin_lt⟩ | ⟨q₁, hq₁, rfl⟩
          · exact refused_part hp hsize hboundary hin hin_lt
          obtain ⟨chunks, -, -, hreads⟩ := reads_part cut err q₁ hp hsize hboundary
          have hshort : q₁.length < 2 := by
            simp [dashes, crlf] at hlt
            omega
          exact (refused_short hshort).of_reads hreads
      | cons next parts =>
          rw [partsBytes] at hq hlt
          · rcases prefix_append_cases hq with ⟨hin, hin_lt⟩ | ⟨q₁, hq₁, rfl⟩
            · exact refused_part hp hsize hboundary hin hin_lt
            obtain ⟨chunks, -, -, hreads⟩ := reads_part cut err q₁ hp hsize hboundary
            refine Refused.of_reads ?_ hreads
            rcases prefix_append_cases hq₁ with ⟨-, hin_lt⟩ | ⟨q₂, hq₂, rfl⟩
            · exact refused_short hin_lt
            have hlt' : q₂.length + 2 < (partsBytes boundary (next :: parts)).length := by
              simp [dashes, crlf] at hlt
              omega
            exact (ih hparts hq₂ hlt').of_reads (.step (read_next cut) rfl (.refl _))
          · exact List.cons_ne_nil _ _
          · exact List.cons_ne_nil _ _

theorem refused_begin (hsize : 0 < size) (hq : q <+: dashes ++ boundary ++ crlf)
    (hlt : q.length < (dashes ++ boundary ++ crlf).length) :
    Refused cut env (RestyUpload.new boundary ⟨q, err⟩ size) := by
  have hnoLine {f : Form}
      (hpreamble : Form.discardPreamble cut (2 * q.length + 2)
        (RestyUpload.new boundary ⟨q, err⟩ size) = some f) : f.NoLine := by
    rcases prefix_append_cases hq with ⟨hin, hin_lt⟩ | ⟨q₁, hq₁, rfl⟩
    · have hnone : splitUntil (dashes ++ boundary) q = none := by
        have hsplit := splitUntil_here (dashes ++ boundary) []
        rw [List.append_nil] at hsplit
        exact splitUntil_of_short hsplit hin (by simpa using hin_lt)
      obtain ⟨hline, hinbox⟩ := Form.discardPreamble_starved cut rfl hnone hpreamble
      refine ⟨hline, ?_⟩
      rw [hinbox]
      rfl
    · rw [discardPreamble_begin cut hsize] at hpreamble
      obtain rfl := Option.some.inj hpreamble
      have hshort : q₁.length < ([] ++ crlf).length := by simpa using hlt
      exact ⟨rfl, noLine_of_short [] List.not_mem_nil hq₁ hshort⟩
  obtain ⟨f, hpreamble⟩ := Option.isSome_iff_exists.mp (Form.discardPreamble_isSome cut
    (f := RestyUpload.new boundary ⟨q, err⟩ size) ⟨rfl, hsize⟩ (Nat.lt_succ_self _))
  obtain ⟨e, f', hdiscard⟩ := Form.discardLine_noLine cut (hnoLine hpreamble)
  have hread : Form.read cut (RestyUpload.new boundary ⟨q, err⟩ size) =
      some (.failed (some e), f') := by
    show Form.readPreamble cut _ = _
    unfold Form.readPreamble
    rw [hpreamble, Option.map_some, hdiscard]
  exact refused_of_failed hread

/-- A form that ends before its last boundary does is not accepted, whatever was read of it. -/
theorem multipart_cut_off (cut : Cut) (env : Env τ) {parts : List Part} {boundary q : List UInt8}
    {size : Nat} {contentType : Option (List UInt8)} (hsent : Sent contentType size boundary parts)
    (hq : q <+: formBytes boundary parts) (hlt : q.length + 2 < (formBytes boundary parts).length)
    (err : String) (st : Multi τ) :
    multipart cut env contentType ⟨q, err⟩ size ≠ some (.form, st) := by
  unfold multipart
  rw [hsent.header]
  suffices hrefused : Refused cut env (RestyUpload.new boundary ⟨q, err⟩ size) from
    hrefused _ _ _
  rw [formBytes, ← List.append_assoc] at hq hlt
  rcases prefix_append_cases hq with ⟨hin, hin_lt⟩ | ⟨q₁, hq₁, rfl⟩
  · exact refused_begin hsent.size hin hin_lt
  · have hlt' : q₁.length + 2 < (partsBytes boundary parts).length := by
      simp only [List.length_append] at hlt
      omega
    rw [List.append_assoc]
    exact (refused_parts hsent.sound hsent.size hsent.cr hq₁ hlt').of_reads
      (.congr (read_begin cut hsent.size) (.refl _))

end Refusing

namespace Sample

def boundary : List UInt8 := text "X-1"

def contentType : Option (List UInt8) := some (text "multipart/form-data; boundary=X-1")

def parts : List Part :=
  [⟨text "files_info", none, none, text "[]"⟩,
    ⟨text "a", some (text "a.zip"), some (text "text/plain"), text "--X-1 \r\n--X"⟩,
    ⟨text "files_info", none, none, []⟩, ⟨text "a", some (text "b\""), none, []⟩]

theorem sent : Sent contentType 3 boundary parts where
  header := by decide +kernel
  size := by decide
  cr := by decide
  nonempty := List.cons_ne_nil _ _
  sound := by decide +kernel

end Sample

theorem multipart_cut_off_sample : multipart Cut.exact sampleEnv Sample.contentType
    ⟨(formBytes Sample.boundary Sample.parts).take 200, "timeout"⟩ 3 ≠
      some (.form, Multi.empty Unit) :=
  multipart_cut_off Cut.exact sampleEnv Sample.sent (List.take_prefix 200 _) (by decide +kernel)
    "timeout" (Multi.empty Unit)

end CloudEdgePush.Server.RestyPost
