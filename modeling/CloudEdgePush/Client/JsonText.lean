import CloudEdgePush.Client.Ptree
import Mathlib.Data.List.Chain

/-!
# The lines of a JSON text

`write_json` ends its lines with `\n` and indents all of them but the first and the last.  So the
closing brace of the text is the first one at the start of a line, and no text is a proper
prefix of another one.
-/

namespace CloudEdgePush.Client.Ptree

def Lined (text : List Char) : Prop := text.IsChain fun c d => c = '\n' → d = ' '

theorem lined_cons {c : Char} {text : List Char} (hc : c ≠ '\n') (h : Lined text) :
    Lined (c :: text) :=
  List.isChain_cons.mpr ⟨fun _ _ hline => absurd hline hc, h⟩

theorem lined_append {word text : List Char} (hword : ∀ c ∈ word, c ≠ '\n') (h : Lined text) :
    Lined (word ++ text) := by
  induction word with
  | nil => exact h
  | cons c word ih =>
      obtain ⟨hc, hword⟩ := List.forall_mem_cons.mp hword
      exact lined_cons hc (ih hword)

theorem not_newline_of_mem_margin {indent : Nat} : ∀ c ∈ margin indent, c ≠ '\n' := by
  intro c hc
  rw [List.eq_of_mem_replicate hc]
  decide

theorem lined_newline (indent : Nat) {text : List Char} (h : Lined text) :
    Lined ('\n' :: (margin (indent + 1) ++ text)) := by
  have hmargin : Lined (margin (indent + 1) ++ text) := lined_append not_newline_of_mem_margin h
  refine List.isChain_cons.mpr ⟨fun d hd _ => ?_, hmargin⟩
  have hspace : (margin (indent + 1) ++ text).head? = some ' ' := rfl
  rw [hspace] at hd
  exact (Option.some.inj hd).symm

theorem hexDigit_ne_newline (n : Nat) : hexDigit n ≠ '\n' := by
  rw [hexDigit, List.getD_eq_getElem?_getD]
  cases hget : "0123456789ABCDEF".toList[n]? with
  | none => decide
  | some c =>
      rintro (rfl : c = '\n')
      exact absurd (List.mem_of_getElem? hget) (by decide)

theorem not_newline_of_mem_escapeChar (c : Char) : ∀ d ∈ escapeChar c, d ≠ '\n' := by
  intro d hd
  unfold escapeChar at hd
  repeat'
    split at hd
  all_goals
    simp only [List.mem_cons, List.not_mem_nil, or_false] at hd
  any_goals
    rcases hd with rfl | rfl
    · decide
    · decide
  · rcases hd with rfl | rfl | rfl | rfl | rfl | rfl
    · decide
    · decide
    · decide
    · decide
    · exact hexDigit_ne_newline _
    · exact hexDigit_ne_newline _
  · rw [hd]
    assumption

theorem not_newline_of_mem_quoted (s : String) : ∀ c ∈ quoted s, c ≠ '\n' := by
  intro c hc
  simp only [quoted, List.cons_append, List.mem_cons, List.mem_append, List.mem_flatMap,
    List.not_mem_nil, or_false] at hc
  rcases hc with rfl | ⟨d, -, hd⟩ | rfl
  · decide
  · exact not_newline_of_mem_escapeChar d c hd
  · decide

theorem brackets_ne_newline (indent : Nat) (children : List (String × Ptree)) :
    (brackets indent children).1 ≠ '\n' ∧ (brackets indent children).2 ≠ '\n' := by
  unfold brackets
  split
  · exact ⟨by decide, by decide⟩
  · exact ⟨by decide, by decide⟩

/-! ## Trees -/

mutual

theorem lined_jsonChars (indent : Nat) (t : Ptree) {text : List Char} (h : Lined text) :
    Lined (jsonChars (indent + 1) t ++ text) := by
  match t with
  | node data [] =>
      rw [jsonChars, if_pos (Nat.succ_pos _)]
      exact lined_append (not_newline_of_mem_quoted data) h
  | node data (child :: rest) =>
      obtain ⟨hleft, hright⟩ := brackets_ne_newline (indent + 1) (child :: rest)
      rw [jsonChars]
      generalize brackets (indent + 1) (child :: rest) = sides at hleft hright ⊢
      obtain ⟨left, right⟩ := sides
      have hclose := lined_newline indent (lined_cons hright h)
      have hmembers := lined_jsonMembers (indent + 1) (left = '\x7b') (child :: rest) hclose
      have hall := lined_cons hleft hmembers
      simpa only [List.append_assoc, List.cons_append, List.nil_append] using hall

theorem lined_jsonMembers (indent : Nat) (keys : Bool) (children : List (String × Ptree))
    {text : List Char} (h : Lined ('\n' :: text)) :
    Lined ('\n' :: (jsonMembers indent keys children ++ text)) := by
  match children with
  | [] => exact h
  | (key, t) :: rest =>
      have hrest := lined_jsonMembers indent keys rest h
      have hend : Lined ((if rest.isEmpty then ['\n'] else [',', '\n']) ++
          (jsonMembers indent keys rest ++ text)) := by
        split
        · exact hrest
        · exact lined_cons (by decide) hrest
      have hvalue := lined_jsonChars indent t hend
      have hkey : Lined ((if keys then quoted key ++ [':', ' '] else []) ++
          (jsonChars (indent + 1) t ++ ((if rest.isEmpty then ['\n'] else [',', '\n']) ++
            (jsonMembers indent keys rest ++ text)))) := by
        split
        · rw [List.append_assoc]
          exact lined_append (not_newline_of_mem_quoted key)
            (lined_cons (by decide) (lined_cons (by decide) hvalue))
        · exact hvalue
      have hline := lined_newline indent hkey
      rw [jsonMembers]
      simpa only [List.append_assoc] using hline

end

theorem jsonMembers_ends (indent : Nat) (keys : Bool) (child : String × Ptree)
    (rest : List (String × Ptree)) :
    ∃ front, jsonMembers indent keys (child :: rest) = front ++ ['\n'] := by
  induction rest generalizing child with
  | nil =>
      rw [jsonMembers, jsonMembers, List.append_nil]
      exact ⟨_, rfl⟩
  | cons next rest ih =>
      obtain ⟨front, hfront⟩ := ih next
      rw [jsonMembers, hfront, ← List.append_assoc]
      exact ⟨_, rfl⟩

theorem jsonChars_root (t : Ptree) : ∃ front, jsonChars 0 t = front ++ ['\n', '\x7d'] ∧
    Lined (front ++ ['\n']) := by
  match t with
  | node data [] => exact ⟨['\x7b'], rfl, lined_cons (by decide) (List.isChain_singleton _)⟩
  | node data (child :: rest) =>
      have hmembers := lined_jsonMembers 0 true (child :: rest) (List.isChain_singleton '\n')
      obtain ⟨front, hfront⟩ := jsonMembers_ends 0 true child rest
      rw [List.append_nil, hfront] at hmembers
      refine ⟨'\x7b' :: '\n' :: front, ?_, lined_cons (by decide) hmembers⟩
      have hroot : jsonChars 0 (node data (child :: rest)) =
          '\x7b' :: '\n' :: (jsonMembers 0 true (child :: rest) ++ ['\x7d']) := by
        simp [jsonChars, brackets, margin]
      rw [hroot, hfront]
      simp

/-- A line that starts with a brace is the last one. -/
theorem eq_of_lined {front front' rest : List Char} (h : Lined (front' ++ ['\n']))
    (heq : front ++ '\n' :: '\x7d' :: rest = front' ++ ['\n', '\x7d', '\n']) :
    rest = ['\n'] := by
  rcases List.append_eq_append_iff.mp heq with ⟨between, rfl, hbehind⟩ | ⟨between, rfl, hbehind⟩
  · cases between with
    | nil => simpa using hbehind
    | cons c between =>
        obtain ⟨rfl, hafter⟩ := List.cons.inj hbehind
        have hline : Lined ('\n' :: (between ++ ['\n'])) := by
          rw [List.append_assoc] at h
          exact List.IsChain.right_of_append h
        cases between with
        | nil => simp at hafter
        | cons d between =>
            obtain ⟨rfl, -⟩ := List.cons.inj hafter
            have hspace := (List.isChain_cons_cons.mp hline).1 rfl
            exact absurd hspace (by decide)
  · cases between with
    | nil => simpa using hbehind.symm
    | cons c between =>
        have hlength := congrArg List.length hbehind
        simp only [List.length_cons, List.length_append, List.length_nil] at hlength
        have hnone : between = [] := List.eq_nil_of_length_eq_zero (by omega)
        rw [hnone] at hbehind
        simp at hbehind

def IsText (t : Ptree) : Prop := ∀ c ∈ jsonChars 0 t, c.toNat < 256

instance (t : Ptree) : Decidable t.IsText :=
  decidable_of_iff ((jsonChars 0 t).all fun c => c.toNat < 256) (by simp [IsText])

theorem map_jsonBytes {t : Ptree} (h : t.IsText) :
    t.jsonBytes.map (fun b => Char.ofNat b.toNat) = jsonChars 0 t ++ ['\n'] := by
  have hchar : ∀ c ∈ jsonChars 0 t ++ ['\n'], Char.ofNat (UInt8.ofNat c.toNat).toNat = c := by
    intro c hc
    have hlt : c.toNat < 256 := by
      rcases List.mem_append.mp hc with htext | hend
      · exact h c htext
      · rw [List.mem_singleton.mp hend]
        decide
    rw [UInt8.toNat_ofNat', Nat.mod_eq_of_lt hlt, Char.ofNat_toNat]
  rw [jsonBytes, List.map_map]
  calc (jsonChars 0 t ++ ['\n']).map _
    _ = (jsonChars 0 t ++ ['\n']).map id := List.map_congr_left hchar
    _ = jsonChars 0 t ++ ['\n'] := List.map_id _

/-- No text is a proper prefix of another one. -/
theorem jsonBytes_prefix {t t' : Ptree} (ht : t.IsText) (ht' : t'.IsText)
    (hstarts : t.jsonBytes <+: t'.jsonBytes) : t.jsonBytes = t'.jsonBytes := by
  obtain ⟨front, hfront, -⟩ := jsonChars_root t
  obtain ⟨front', hfront', hlined⟩ := jsonChars_root t'
  obtain ⟨more, hmore⟩ := hstarts
  have hchars := congrArg (List.map fun b => Char.ofNat b.toNat) hmore
  rw [List.map_append, map_jsonBytes ht, map_jsonBytes ht', hfront, hfront'] at hchars
  have hsame : front ++ '\n' :: '\x7d' :: '\n' :: more.map (fun b => Char.ofNat b.toNat) =
      front' ++ ['\n', '\x7d', '\n'] := by simpa using hchars
  have hnil : more = [] := by simpa using eq_of_lined hlined hsame
  rw [← hmore, hnil, List.append_nil]

end CloudEdgePush.Client.Ptree
