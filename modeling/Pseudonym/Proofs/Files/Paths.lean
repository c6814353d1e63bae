import Mathlib.Data.List.Basic
import Mathlib.Data.List.Induction
import Mathlib.Data.List.TakeWhile
import Pseudonym.Files.Disk

namespace Pseudonym.Files

section Splitting

theorem splitSlashes_join (a b : String) :
    splitSlashes (a ++ "/" ++ b) = splitSlashes a ++ splitSlashes b := by
  have hchars : (a ++ "/" ++ b).toList = a.toList ++ '/' :: b.toList := by simp
  rw [splitSlashes, hchars, List.splitOn_append_cons_self, List.map_append]
  rfl

theorem splitSlashes_of_notMem {s : String} (h : '/' ∉ s.toList) : splitSlashes s = [s] := by
  rw [splitSlashes, List.splitOn_eq_singleton h, List.map_singleton, String.ofList_toList]

theorem splitSlashes_intercalate {parts : List String} (hne : parts ≠ [])
    (h : ∀ part ∈ parts, '/' ∉ part.toList) : splitSlashes ("/".intercalate parts) = parts := by
  induction parts with
  | nil => exact absurd rfl hne
  | cons part parts ih =>
      obtain ⟨hpart, hparts⟩ := List.forall_mem_cons.mp h
      by_cases hnil : parts = []
      · subst hnil
        rw [String.intercalate_singleton, splitSlashes_of_notMem hpart]
      · rw [String.intercalate_cons_of_ne_nil hnil, splitSlashes_join, ih hnil hparts,
          splitSlashes_of_notMem hpart]
        rfl

theorem exists_splitOn_last (cs : List Char) : ∃ init last, cs.splitOn '/' = init ++ [last] ∧
    '/' ∉ last ∧ (∀ part ∈ init, '/' ∉ part) ∧
    ∀ s : List Char, '/' ∉ s → (cs ++ s).splitOn '/' = init ++ [last ++ s] := by
  induction cs with
  | nil => exact ⟨[], [], List.splitOn_nil _, by simp, by simp, fun s hs => List.splitOn_eq_singleton hs⟩
  | cons c cs ih =>
      obtain ⟨init, last, hsplit, hlast, hinit, hmore⟩ := ih
      by_cases hc : c = '/'
      · subst hc
        refine ⟨[] :: init, last, ?_, hlast, by simpa using hinit, fun s hs => ?_⟩
        · simp [List.splitOn_cons_eq_if_modifyHead, hsplit]
        · simp [List.splitOn_cons_eq_if_modifyHead, hmore s hs]
      · -- The character belongs to the first part, which may be the last as well.
        cases init with
        | nil =>
            refine ⟨[], c :: last, ?_, ?_, by simp, fun s hs => ?_⟩
            · simp [List.splitOn_cons_eq_if_modifyHead, hc, hsplit]
            · simp [Ne.symm hc, hlast]
            · simp [List.splitOn_cons_eq_if_modifyHead, hc, hmore s hs]
        | cons part init =>
            refine ⟨(c :: part) :: init, last, ?_, hlast, ?_, fun s hs => ?_⟩
            · simp [List.splitOn_cons_eq_if_modifyHead, hc, hsplit]
            · simpa [Ne.symm hc] using hinit
            · simp [List.splitOn_cons_eq_if_modifyHead, hc, hmore s hs]

theorem notMem_of_mem_splitSlashes {path part : String} (h : part ∈ splitSlashes path) :
    '/' ∉ part.toList := by
  obtain ⟨init, last, hsplit, hlast, hinit, -⟩ := exists_splitOn_last path.toList
  obtain ⟨cs, hcs, rfl⟩ := List.mem_map.mp h
  rw [String.toList_ofList]
  rw [hsplit, List.mem_append, List.mem_singleton] at hcs
  rcases hcs with hcs | rfl
  · exact hinit cs hcs
  · exact hlast

/-- What is written behind a path without a slash goes to its last part. -/
theorem exists_last_part (path : String) : ∃ init last, splitSlashes path = init ++ [last] ∧
    ∀ s : String, '/' ∉ s.toList → splitSlashes (path ++ s) = init ++ [last ++ s] := by
  obtain ⟨init, last, hsplit, -, -, hmore⟩ := exists_splitOn_last path.toList
  refine ⟨init.map String.ofList, String.ofList last, ?_, fun s hs => ?_⟩
  · rw [splitSlashes, hsplit, List.map_append, List.map_singleton]
  · rw [splitSlashes, String.toList_append, hmore s.toList hs, List.map_append, List.map_singleton,
      String.ofList_append, String.ofList_toList]

theorem eq_empty_of_splitSlashes {path : String} (h : splitSlashes path = [""]) : path = "" := by
  have hjoin : ['/'].intercalate (path.toList.splitOn '/') = path.toList :=
    List.intercalate_splitOn '/'
  obtain ⟨cs, hcs, hempty⟩ := List.map_eq_singleton_iff.mp h
  rw [hcs, List.intercalate_singleton] at hjoin
  rw [hjoin, String.ofList_toList] at hempty
  exact hempty

end Splitting

/-- A part of a path that can be written between slashes. -/
def IsPart (part : String) : Prop := part ≠ "" ∧ '/' ∉ part.toList

/-- What a file or folder can be called. -/
def IsName (name : String) : Prop := IsPart name ∧ name ≠ "." ∧ name ≠ ".."

instance (name : String) : Decidable (IsName name) :=
  inferInstanceAs (Decidable ((_ ∧ _) ∧ _ ∧ _))

def filled (path : String) : List String := (splitSlashes path).filter (· ≠ "")

theorem filled_join (a b : String) : filled (a ++ "/" ++ b) = filled a ++ filled b := by
  rw [filled, splitSlashes_join, List.filter_append]
  rfl

theorem filled_empty : filled "" = [] := by decide

theorem filled_append_slash (path : String) : filled (path ++ "/") = filled path := by
  have hjoin := filled_join path ""
  rwa [String.append_empty, filled_empty, List.append_nil] at hjoin

theorem filled_of_notMem {part : String} (h : IsPart part) : filled part = [part] := by
  rw [filled, splitSlashes_of_notMem h.2, List.filter_cons_of_pos (by simpa using h.1), List.filter_nil]

theorem partsOf_of_last {path last : String} {init : List String}
    (h : splitSlashes path = init ++ [last]) (hlast : last ≠ "") :
    Disk.partsOf path = init.filter (· ≠ "") ++ [last] := by
  simp [Disk.partsOf, h, hlast]

theorem partsOf_of_slash {path : String} {init : List String}
    (h : splitSlashes path = init ++ [""]) (hinit : init ≠ []) :
    Disk.partsOf path = init.filter (· ≠ "") ++ ["."] := by
  have hlength : 0 < init.length := List.length_pos_iff.mpr hinit
  simp [Disk.partsOf, h, hlength]

/-- A path goes through the parts that are not empty, and a slash at its end asks for a folder. -/
theorem partsOf_eq (path : String) :
    Disk.partsOf path = filled path ∨ Disk.partsOf path = filled path ++ ["."] := by
  obtain ⟨init, last, hsplit, -⟩ := exists_last_part path
  rw [filled, hsplit]
  by_cases hlast : last = ""
  · subst hlast
    by_cases hinit : init = []
    · subst hinit
      exact .inl (by simp [Disk.partsOf, hsplit])
    · exact .inr (by simp [partsOf_of_slash hsplit hinit])
  · exact .inl (by simp [partsOf_of_last hsplit hlast, hlast])

theorem exists_of_getLast?_slash {folder : String} (h : folder.toList.getLast? = some '/') :
    ∃ rest : String, folder = rest ++ "/" := by
  obtain ⟨cs, hcs⟩ := List.getLast?_eq_some_iff.mp h
  refine ⟨String.ofList cs, String.toList_inj.mp ?_⟩
  simp [hcs]

/-- A path that is put below another has the parts of both. -/
theorem filled_joinText {folder path : String} (h : path.toList.head? ≠ some '/') :
    filled (joinText folder path) = filled folder ++ filled path := by
  rw [joinText, if_neg h]
  split
  next hfolder =>
    rcases Bool.or_eq_true_iff.mp hfolder with hempty | hslash
    · rw [String.isEmpty_iff.mp hempty, String.empty_append, filled_empty, List.nil_append]
    · obtain ⟨rest, rfl⟩ := exists_of_getLast?_slash (of_decide_eq_true hslash)
      rw [filled_join, filled_append_slash]
  next => rw [filled_join]

theorem head?_joinText {folder path : String} (hfolder : folder ≠ "")
    (h : path.toList.head? ≠ some '/') :
    (joinText folder path).toList.head? = folder.toList.head? := by
  obtain ⟨c, hc⟩ : ∃ c, folder.toList.head? = some c := by
    apply Option.isSome_iff_exists.mp
    simpa using hfolder
  rw [joinText, if_neg h]
  split <;> simp [hc]

section Ends

theorem exists_dropSlashes (path : String) :
    ∃ slashes : List Char, (∀ c ∈ slashes, c = '/') ∧
      path = dropSlashes path ++ String.ofList slashes := by
  refine ⟨(path.toList.reverse.takeWhile (· = '/')).reverse, ?_, ?_⟩
  · intro c hc
    simpa using List.mem_takeWhile_imp (List.mem_reverse.mp hc)
  · rw [dropSlashes, ← String.ofList_append, ← List.reverse_append, List.takeWhile_append_dropWhile,
      List.reverse_reverse, String.ofList_toList]

theorem head?_append {a b : String} (h : a ≠ "") : (a ++ b).toList.head? = a.toList.head? := by
  obtain ⟨c, cs, hcs⟩ := List.exists_cons_of_ne_nil (String.toList_eq_nil_iff.not.mpr h)
  simp [hcs]

/-- What stands behind the last of some characters, and what ends in it. -/
theorem exists_last_run (c : Char) (cs : List Char) : ∃ head,
    cs = head ++ (cs.reverse.takeWhile (· ≠ c)).reverse ∧
    c ∉ (cs.reverse.takeWhile (· ≠ c)).reverse ∧ (head = [] ∨ head.getLast? = some c) := by
  refine ⟨(cs.reverse.dropWhile (· ≠ c)).reverse, ?_, ?_, ?_⟩
  · rw [← List.reverse_append, List.takeWhile_append_dropWhile, List.reverse_reverse]
  · intro hmem
    simpa using List.mem_takeWhile_imp (List.mem_reverse.mp hmem)
  · have hnot := List.head?_dropWhile_not (· ≠ c) cs.reverse
    rw [List.getLast?_reverse]
    cases hrest : cs.reverse.dropWhile (· ≠ c) with
    | nil => exact .inl rfl
    | cons d ds =>
        rw [hrest] at hnot
        exact .inr (by simpa using hnot)

/-- The last part of a path has no slash, and before it there is one if there is anything. -/
theorem exists_splitLast (path : String) : ∃ head : String,
    path = head ++ (splitLast path).2 ∧ '/' ∉ (splitLast path).2.toList ∧
    (head = "" ∨ head.toList.getLast? = some '/') ∧
    ((splitLast path).1 = head ∨ (splitLast path).1 = dropSlashes head) := by
  obtain ⟨head, hpath, hslash, hhead⟩ := exists_last_run '/' path.toList
  rw [splitLast]
  generalize (path.toList.reverse.takeWhile (· ≠ '/')).reverse = tail at hpath hslash
  have htake : path.toList.take (path.toList.length - tail.length) = head := by
    rw [hpath, List.length_append, Nat.add_sub_cancel, List.take_left]
  refine ⟨String.ofList head, ?_, ?_, ?_, ?_⟩
  · rw [← String.ofList_append, ← hpath, String.ofList_toList]
  · rwa [String.toList_ofList]
  · rw [String.toList_ofList]
    exact hhead.imp_left (congrArg String.ofList)
  · simp only [htake]
    split
    · exact .inl rfl
    · exact .inr (by rw [dropSlashes, String.toList_ofList])

theorem snd_splitLast {path last : String} {init : List String}
    (h : splitSlashes path = init ++ [last]) : (splitLast path).2 = last := by
  obtain ⟨head, hpath, hslash, hhead, -⟩ := exists_splitLast path
  have hsplit : ∃ front, splitSlashes path = front ++ [(splitLast path).2] := by
    rw [← splitSlashes_of_notMem hslash]
    rcases hhead with rfl | hhead
    · rw [String.empty_append] at hpath
      exact ⟨[], by rw [List.nil_append, ← hpath]⟩
    · obtain ⟨rest, rfl⟩ := exists_of_getLast?_slash hhead
      exact ⟨splitSlashes rest, by rw [← splitSlashes_join, ← hpath]⟩
  obtain ⟨front, hfront⟩ := hsplit
  exact List.singleton_inj.mp (List.append_inj' (hfront.symm.trans h) rfl).2

/-- A path without its last part, and that part. Slashes at the end do not count. -/
def splitPart (path : String) : String × String :=
  if (splitLast path).2.isEmpty then splitLast (splitLast path).1 else splitLast path

end Ends

namespace Path

structure Clean (p : Path) : Prop where
  root : p.root = "" ∨ p.root = "/" ∨ p.root = "//"
  parts : ∀ part ∈ p.parts, IsPart part

theorem rootOf_cases (path : String) :
    (rootOf path = "" ∧ path.toList.head? ≠ some '/') ∨
      ((rootOf path = "/" ∨ rootOf path = "//") ∧ path.toList.head? = some '/') := by
  unfold rootOf
  split
  next h => exact .inr ⟨.inl rfl, by simp [h]⟩
  next h => exact .inr ⟨.inr rfl, by simp [h]⟩
  next h => exact .inr ⟨.inl rfl, by simp [h]⟩
  next h =>
    refine .inl ⟨rfl, fun hhead => ?_⟩
    obtain ⟨cs, hcs⟩ := List.head?_eq_some_iff.mp hhead
    exact h cs hcs

theorem parts_ofText (path : String) : (ofText path).parts = (filled path).filter (· ≠ ".") := by
  rw [ofText, filled, List.filter_filter]
  apply List.filter_congr
  intro part _
  simp [Bool.and_comm]

theorem clean_ofText (path : String) : (ofText path).Clean := by
  constructor
  · rcases rootOf_cases path with ⟨hroot, -⟩ | ⟨hroot, -⟩
    · exact .inl hroot
    · exact .inr hroot
  · intro part hpart
    rw [parts_ofText] at hpart
    have hfilled := List.mem_filter.mp (List.mem_of_mem_filter hpart)
    exact ⟨of_decide_eq_true hfilled.2, notMem_of_mem_splitSlashes hfilled.1⟩

variable {p : Path}

theorem splitSlashes_text (h : p.Clean) (hparts : p.parts ≠ []) :
    ∃ blanks : List String, (∀ blank ∈ blanks, blank = "") ∧ splitSlashes p.text = blanks ++ p.parts := by
  have hsplit := splitSlashes_intercalate hparts fun part hpart => (h.parts part hpart).2
  have htext : p.text = p.root ++ "/".intercalate p.parts := by simp [text, hparts]
  rcases h.root with hroot | hroot | hroot
  · exact ⟨[], by simp, by rw [htext, hroot, String.empty_append, hsplit]; rfl⟩
  · refine ⟨[""], by simp, ?_⟩
    have hjoin := splitSlashes_join "" ("/".intercalate p.parts)
    rw [hsplit] at hjoin
    rw [htext, hroot]
    exact hjoin
  · refine ⟨["", ""], by simp, ?_⟩
    have hjoin := splitSlashes_join "/" ("/".intercalate p.parts)
    rw [hsplit] at hjoin
    rw [htext, hroot]
    exact hjoin

/-- A clean path can be written and read again. Without parts it leads to the folder it starts from. -/
theorem partsOf_text (h : p.Clean) : Disk.partsOf p.text = if p.parts = [] then ["."] else p.parts := by
  by_cases hparts : p.parts = []
  · rw [if_pos hparts, text, hparts]
    rcases h.root with hroot | hroot | hroot <;> rw [hroot] <;> decide
  · rw [if_neg hparts]
    obtain ⟨blanks, hblanks, hsplit⟩ := splitSlashes_text h hparts
    obtain ⟨init, last, hlast⟩ := (List.eq_nil_or_concat p.parts).resolve_left hparts
    have hpart : ∀ part ∈ p.parts, part ≠ "" := fun part hpart => (h.parts part hpart).1
    rw [hlast, List.concat_eq_append] at hsplit hpart ⊢
    rw [← List.append_assoc] at hsplit
    have hinit : init.filter (· ≠ "") = init := List.filter_eq_self.mpr fun part hmem =>
      decide_eq_true (hpart part (List.mem_append_left _ hmem))
    have hblank : blanks.filter (· ≠ "") = [] := List.filter_eq_nil_iff.mpr fun blank hmem => by
      simp [hblanks blank hmem]
    rw [partsOf_of_last hsplit (hpart last (by simp)), List.filter_append, hblank, hinit,
      List.nil_append]

theorem head?_text (h : p.Clean) : p.text.toList.head? = some '/' ↔ p.root ≠ "" := by
  rcases h.root with hroot | hroot | hroot
  · rw [hroot]
    refine ⟨fun hhead => ?_, fun hne => absurd rfl hne⟩
    cases hparts : p.parts with
    | nil =>
        rw [text, hroot, hparts] at hhead
        exact absurd hhead (by decide)
    | cons part parts =>
        obtain ⟨hpart, hslash⟩ := h.parts part (by simp [hparts])
        obtain ⟨c, cs, hcs⟩ : ∃ c cs, part.toList = c :: cs :=
          List.exists_cons_of_ne_nil (by simpa using hpart)
        have hc : p.text.toList.head? = some c := by
          cases parts with
          | nil => simp [text, hroot, hparts, hcs]
          | cons next rest => simp [text, hroot, hparts, String.intercalate_cons_cons, hcs]
        obtain rfl := Option.some.inj (hc.symm.trans hhead)
        exact absurd (by simp [hcs]) hslash
  · simp [text, hroot]
  · simp [text, hroot]

theorem splitName_append (name : String) : (splitName name).1 ++ (splitName name).2 = name := by
  obtain ⟨head, hname, -, hhead⟩ := exists_last_run '.' name.toList
  rw [splitName]
  generalize (name.toList.reverse.takeWhile (· ≠ '.')).reverse = ending at hname
  split
  · exact String.append_empty
  next hends =>
    rcases hhead with rfl | hdot
    · -- Without a dot there is no ending.
      rw [List.nil_append] at hname
      simp [hname] at hends
    · obtain ⟨stem, rfl⟩ := List.getLast?_eq_some_iff.mp hdot
      have htake : name.toList.take (name.toList.length - ending.length - 1) = stem := by
        rw [hname, List.length_append, Nat.add_sub_cancel, List.length_append, List.length_singleton,
          Nat.add_sub_cancel, List.append_assoc, List.take_left]
      rw [htake]
      apply String.toList_inj.mp
      simp [hname]

end Path

end Pseudonym.Files
