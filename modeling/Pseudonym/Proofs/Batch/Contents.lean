import Pseudonym.Proofs.Batch.Footprint
import Pseudonym.Proofs.Restoration

namespace Pseudonym

open Files (Disk)
open Report (FileResult)
open Text

variable {σ : Type}

theorem Text.notMem_unifyLineEnds (cs : List Char) : '\r' ∉ unifyLineEnds cs := by
  fun_induction unifyLineEnds cs with
  | case1 => exact List.not_mem_nil
  | case2 cs ih => simp [ih]
  | case3 cs _ ih => simp [ih]
  | case4 c cs _ hc ih =>
      rw [List.mem_cons, not_or]
      exact ⟨fun h => hc h.symm, ih⟩

theorem Text.unifyLineEnds_eq_self_iff {cs : List Char} : unifyLineEnds cs = cs ↔ '\r' ∉ cs := by
  constructor
  · intro h
    rw [← h]
    exact notMem_unifyLineEnds cs
  · intro h
    fun_induction unifyLineEnds cs with
    | case1 => rfl
    | case2 cs ih => simp at h
    | case3 cs _ ih => simp at h
    | case4 c cs _ hc ih => rw [ih (List.not_mem_of_not_mem_cons h)]

theorem Node.written_renamed_of_empty (source : Bytes) {r : Registry} {n : Node}
    (h : n.newName? r = some "") : (n.renamed r).written source = slice source n.start n.stop := by
  rw [written_eq _ _ (fun _ => .inr ⟨"", name_renamed_of_some h⟩), usedName?_renamed_of_some h,
    renamed_eq]
  rfl

namespace Reading

variable {parser : Parser} {profile : Profile} (x : Reading parser profile)

/-- The leaves that get another name, with their sigils and that name. An empty name is not written. -/
def exchanges (r : Registry) : List (Span × Bytes) :=
  x.node.leaves.filterMap fun m =>
    ((m.newName? r).filter (· ≠ "")).map fun new => (m.span, encode (m.sigil ++ new))

theorem written_renamed_eq (r : Registry) {m : Node} (hm : m ∈ x.node.leaves) :
    (m.renamed r).written x.source =
      (((m.newName? r).filter (· ≠ "")).map fun new => encode (m.sigil ++ new)).getD
        (slice x.source m.span.start m.span.stop) := by
  obtain ⟨t, -, hmade⟩ := x.exists_made (List.mem_of_mem_filter hm)
  cases hnew : m.newName? r with
  | none =>
      rw [Node.written_renamed_of_none x.source hnew, hmade.written_eq]
      rfl
  | some new =>
      by_cases hne : new = ""
      · subst hne
        rw [Node.written_renamed_of_empty x.source hnew]
        rfl
      · rw [Node.written_renamed_of_some x.source hnew hne]
        simp [Option.filter, hne]

theorem splice_exchanges (r : Registry) :
    splice x.source 0 (x.node.leaves.map fun m => (m.span, (m.renamed r).written x.source)) =
      splice x.source 0 (x.exchanges r) := by
  have horder : Span.InOrder x.source.length (x.node.leaves.map Node.span) := by
    rw [Convert.map_span_leaves x.converted]
    exact x.inOrder
  have hedits : x.node.leaves.map (fun m => (m.span, (m.renamed r).written x.source)) =
      x.node.leaves.map fun m => (m.span,
        (((m.newName? r).filter (· ≠ "")).map fun new => encode (m.sigil ++ new)).getD
          (slice x.source m.span.start m.span.stop)) :=
    List.map_congr_left fun m hm => by rw [x.written_renamed_eq r hm]
  rw [hedits, splice_filterMap x.source Node.span _ x.node.leaves horder 0 fun m _ => Nat.zero_le _,
    exchanges]
  simp only [Option.map_map, Function.comp_def]

/-- Renaming exchanges names and keeps every other byte. -/
theorem code_of_rename {supply : Supply σ} {state : σ} {done : Redactor.Renamed}
    (h : (Redactor.rename supply parser profile x.text state).result = .ok done) :
    encode done.code = splice x.source 0 (x.exchanges done.registry) ∧
      ∀ name ∈ x.names, ∃ new, done.registry.find? name = some new := by
  rw [rename_result] at h
  rcases hresolve : x.resolve supply state with ⟨failure, r, next⟩
  rw [hresolve] at h
  cases failure with
  | some e => cases h
  | none =>
      have hfound := x.exists_find?_of_resolve hresolve
      obtain ⟨code, hprint, rfl⟩ := Traversal.map_eq_ok_iff.mp h
      rw [print_renamed_eq_splice x hfound] at hprint
      split at hprint
      · cases hprint
      · rw [splice_exchanges, Traversal.mapError_eq_ok_iff, decode_eq_ok_iff] at hprint
        exact ⟨hprint.symm, hfound⟩

theorem code_of_redact {r : Redactor σ} {request : Request} {state : σ} {done : Redaction}
    (htext : request.text = .text x.text) (hmapping : request.includeMapping = some true)
    (hprofile : (r.resolver.resolve request.hint).1 = .ok profile)
    (h : (r.redact parser request state).result = .ok done) :
    ∃ pairs, done.mapping = some pairs ∧
      (∀ name ∈ x.names, ∃ new, (Registry.mk pairs).find? name = some new) ∧
      encode done.code = splice x.source 0 (x.exchanges ⟨pairs⟩) := by
  rcases r.redact_cases parser request state with
    ⟨-, hresult, -⟩ | ⟨-, -, hresult, -⟩ | ⟨-, -, -, ⟨_, hresult⟩, -⟩ |
      ⟨text, profile', htext', -, -, -, hprofile', -, hend⟩
  · cases hresult.symm.trans h
  · cases hresult.symm.trans h
  · cases hresult.symm.trans h
  · obtain rfl : x.text = text := Value.text.inj (htext.symm.trans htext')
    obtain rfl : profile = profile' := Except.ok.inj (hprofile.symm.trans hprofile')
    rcases hend with ⟨e, -, hresult⟩ | ⟨renamed, hrename, hresult⟩
    · cases hresult.symm.trans h
    · obtain rfl := Except.ok.inj (hresult.symm.trans h)
      obtain ⟨hcode, hfound⟩ := x.code_of_rename hrename
      exact ⟨renamed.registry.pairs, by simp [hmapping], hfound, hcode⟩

end Reading

namespace Batch

variable {b : Batch σ} {r : FileResult} {w w' : World σ}

theorem textAt_of_utf8 {d : Disk} {input s : String} (hencoding : b.encoding = .ok .utf8)
    (hread : d.read input = .ok (encode s)) :
    b.textAt d input = .ok (String.ofList (unifyLineEnds s.toList)) := by
  have hdecode : decodeChars (encode s) = .ok s.toList := by
    obtain ⟨cs, hcs, hs⟩ := Traversal.map_eq_ok_iff.mp (decode_eq_ok_iff.mpr (rfl : encode s = encode s))
    rw [hcs, ← hs, String.toList_ofList]
  obtain ⟨name, hname, hcodec⟩ := Traversal.bind_eq_ok_iff.mp hencoding
  rw [textAt, hread, hname]
  simp [bind, Except.bind, Except.mapError, hcodec, Codec.utf8, hdecode]

theorem processFile_bytes {profile : Profile} (x : Reading b.parser profile) {input out s : String}
    {output : Option String} {language : Value}
    (h : b.processFile input output language w = (.ok r, w')) (hsuccess : r.success = true)
    (hout : b.outputOf input output = .ok out) (hencoding : b.encoding = .ok .utf8)
    (hread : w.disk.read input = .ok (encode s))
    (htext : x.text = String.ofList (unifyLineEnds s.toList))
    (hprofile : (b.redactor.resolver.resolve r.language).1 = .ok profile) :
    (∃ redaction pairs, b.redaction w.disk w.state input r.language = .ok redaction ∧
        redaction.mapping = some pairs ∧
        (∀ name ∈ x.names, ∃ new, (Registry.mk pairs).find? name = some new) ∧
        (w'.disk.Holds out (splice x.source 0 (x.exchanges ⟨pairs⟩)) ∨ b.Collides w'.disk out) ∧
        (w'.disk.Direct out → w'.disk.Direct (mappingPath out) → ¬ b.Collides w'.disk out)) ∧
      (x.source = encode s ↔ '\r' ∉ s.toList) := by
  obtain ⟨-, out', hasked, houtcome⟩ := processFile_outcome h
  obtain ⟨hfile, -, redaction, -, hdone, -, hdelivers⟩ := houtcome.of_success hsuccess
  obtain rfl : out = out' := Except.ok.inj (hout.symm.trans (hasked hfile).1)
  obtain ⟨text, htextAt, hredact⟩ := Traversal.bind_eq_ok_iff.mp hdone
  have hsame : x.text = text := by
    rw [textAt_of_utf8 hencoding hread, ← htext] at htextAt
    exact Except.ok.inj htextAt
  obtain ⟨pairs, hmapping, hfound, hcode⟩ :=
    x.code_of_redact (congrArg Value.text hsame.symm) rfl hprofile hredact
  obtain ⟨codec, bytes, hcodec, hbytes, houtput⟩ := hdelivers.code
  obtain rfl : Codec.utf8 = codec := Except.ok.inj (hencoding.symm.trans hcodec)
  obtain rfl : encode redaction.code = bytes := Except.ok.inj hbytes
  rw [hcode] at houtput
  refine ⟨⟨redaction, pairs, hdone, hmapping, hfound, houtput, hdelivers.not_collides⟩, ?_⟩
  rw [Reading.source, htext, ← unifyLineEnds_eq_self_iff]
  constructor
  · intro hencode
    have hlists := congrArg String.toList (encode_injective hencode)
    rwa [String.toList_ofList] at hlists
  · intro hunify
    rw [hunify, String.ofList_toList]

def reading (root : ParseNode) : Batch Nat := { sample with parser := fun _ _ => .ok root }

def worldOf (text : String) : World Nat where
  disk := { entries := [(["a.js"], .file (encode text))] }
  state := 0

theorem processFile_bytes_long :
    ∃ r w', (reading (Reading.assignment 2 5)).processFile "a.js" (some "o/a.js") .null
        (worldOf "é=sub_1.#é") = (.ok r, w') ∧ r.success = true ∧
      (∃ redaction pairs, (reading (Reading.assignment 2 5)).redaction (worldOf "é=sub_1.#é").disk 0
          "a.js" r.language = .ok redaction ∧
        redaction.mapping = some pairs ∧
        (∀ name ∈ Reading.long.names, ∃ new, (Registry.mk pairs).find? name = some new) ∧
        (w'.disk.Holds "o/a.js" (splice Reading.long.source 0 (Reading.long.exchanges ⟨pairs⟩)) ∨
          (reading (Reading.assignment 2 5)).Collides w'.disk "o/a.js") ∧
        (w'.disk.Direct "o/a.js" → w'.disk.Direct (mappingPath "o/a.js") →
          ¬ (reading (Reading.assignment 2 5)).Collides w'.disk "o/a.js")) ∧
      (Reading.long.source = encode "é=sub_1.#é" ↔ '\r' ∉ "é=sub_1.#é".toList) := by
  obtain ⟨r, w', h, hsuccess⟩ := exists_of_any_success
    (x := (reading (Reading.assignment 2 5)).processFile "a.js" (some "o/a.js") .null
      (worldOf "é=sub_1.#é")) (by decide +kernel)
  obtain ⟨-, out, hasked, -⟩ := processFile_outcome h
  have hlanguage : Value.null = r.language := Except.ok.inj (hasked (by decide +kernel)).2
  refine ⟨r, w', h, hsuccess, ?_⟩
  exact processFile_bytes (b := reading (Reading.assignment 2 5)) Reading.long h hsuccess rfl rfl
    (by decide +kernel) (by decide +kernel) (hlanguage ▸ rfl)

/-- A name on a line of its own. -/
def nameLine : ParseNode :=
  .mk "program" 0 2 0 0 true false none [.mk "identifier" 0 1 0 0 true false none []]

/-- A line that ends in a carriage return and a line feed comes back without the former. -/
theorem processFile_line_end :
    ((reading nameLine).processFile "a.js" (some "o.js") .null
        (worldOf "a\r\n")).1.toOption.any (·.success) = true ∧
      ((reading nameLine).processFile "a.js" (some "o.js") .null (worldOf "a\r\n")).2.disk.read "o.js" =
        .ok (encode "sub_1\n") ∧
      splice (encode "a\r\n") 0 [(⟨0, 1⟩, encode "sub_1")] ≠ encode "sub_1\n" := by
  decide +kernel

end Batch

end Pseudonym
