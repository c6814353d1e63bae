import Pseudonym.Proofs.Files.Disks

namespace Pseudonym.Files

namespace Path

/-- The path with a longer last part. -/
def extended (p : Path) (ending : String) : Path := p.parent.join (p.name ++ ending)

theorem join_eq (p : Path) {name : String} (hname : IsPart name) (hdot : name ≠ ".") :
    p.join name = ⟨p.root, p.parts ++ [name]⟩ := by
  have hparts : (ofText name).parts = [name] := by
    rw [parts_ofText, filled_of_notMem hname, List.filter_cons_of_pos (by simpa using hdot),
      List.filter_nil]
  have hroot : (ofText name).root = "" := by
    rcases rootOf_cases name with ⟨hroot, -⟩ | ⟨-, hhead⟩
    · exact hroot
    · exact absurd (List.mem_of_head? hhead) hname.2
  rw [join, if_pos hroot, hparts, below]

theorem extended_eq (p : Path) (hp : p.Clean) {ending : String} (hslash : '/' ∉ ending.toList)
    (hlength : 1 < ending.length) :
    p.extended ending = ⟨p.root, p.parts.dropLast ++ [p.name ++ ending]⟩ := by
  have hname : '/' ∉ p.name.toList := by
    rw [name, List.getLastD_eq_getLast?]
    cases hlast : p.parts.getLast? with
    | none => decide
    | some part => exact (hp.parts part (List.mem_of_getLast? hlast)).2
  have hchild : '/' ∉ (p.name ++ ending).toList := by simp [hname, hslash]
  have hlong : 1 < (p.name ++ ending).length := by
    rw [String.length_append]
    omega
  have hne : p.name ++ ending ≠ "" := fun h => by rw [h] at hlong; exact absurd hlong (by decide)
  have hdot : p.name ++ ending ≠ "." := fun h => by rw [h] at hlong; exact absurd hlong (by decide)
  exact p.parent.join_eq ⟨hne, hchild⟩ hdot

end Path

namespace Disk

variable {d d' : Disk}

theorem isName_append {part ending : String} (hpart : IsPart part) (hslash : '/' ∉ ending.toList)
    (hlength : 2 < ending.length) : IsName (part ++ ending) := by
  have hlong : 2 < (part ++ ending).length := by
    rw [String.length_append]
    omega
  refine ⟨⟨?_, by simp [hpart.2, hslash]⟩, ?_, ?_⟩ <;> intro h <;> rw [h] at hlong <;>
    exact absurd hlong (by decide)

/-- What is put into a part that is no single dot makes it a name. -/
theorem isName_insert {stem middle ending : String} (hpart : IsPart (stem ++ ending))
    (hdot : stem ++ ending ≠ ".") (hmiddle : middle ≠ "") (hslash : '/' ∉ middle.toList) :
    IsName (stem ++ middle ++ ending) := by
  have hone := String.length_eq_zero_iff.not.mpr hpart.1
  have hmore := String.length_eq_zero_iff.not.mpr hmiddle
  rw [String.length_append] at hone
  have hlong : 1 < (stem ++ middle ++ ending).length := by
    simp only [String.length_append]
    omega
  refine ⟨⟨?_, ?_⟩, ?_, ?_⟩
  · intro h
    rw [h] at hlong
    exact absurd hlong (by decide)
  · have hparts := hpart.2
    simp only [String.toList_append, List.mem_append, not_or] at hparts ⊢
    exact ⟨⟨hparts.1, hslash⟩, hparts.2⟩
  · intro h
    rw [h] at hlong
    exact absurd hlong (by decide)
  · -- Of two dots a single one would be left.
    intro h
    have hlength := congrArg String.length h
    have hdots : ∀ c ∈ (stem ++ middle ++ ending).toList, c = '.' := by simp [h]
    have hleft : (stem ++ ending).toList = List.replicate 1 '.' := by
      refine List.eq_replicate_iff.mpr ⟨?_, fun c hc => hdots c ?_⟩
      · simp only [String.length_append] at hlength
        simp only [String.length_toList, String.length_append]
        have htwo : "..".length = 2 := by decide
        omega
      · simp only [String.toList_append, List.mem_append] at hc ⊢
        exact hc.imp_left .inl
    exact hdot (String.toList_inj.mp hleft)

/-- The last folder that a path goes through, the links that are left there, and the last part. -/
structure Ends (d : Disk) (path : String) (parent : Place) (left : Nat) (last : String) : Prop where
  part : IsPart last
  ne_dot : last ≠ "."
  isFolder : d.get? parent = some .folder
  split : ∃ init, splitSlashes path = init ++ [last] ∧
    d.follow linkLimit (startFrom d.here path) (init.filter (· ≠ "")) = .ok (parent, left)

/-- What is no folder can only be reached through its last part. -/
theorem exists_ends {path : String} {place : Place} (h : d.locate path = .ok place)
    (hplace : d.get? place ≠ some .folder) : ∃ parent left last, d.Ends path parent left last := by
  obtain ⟨hpath, rest, hfollow⟩ := locate_eq_ok_iff.mp h
  obtain ⟨init, last, hsplit, -⟩ := exists_last_part path
  -- A path that ends in a dot or a slash asks for a folder.
  have hdots : Disk.partsOf path ≠ init.filter (· ≠ "") ++ ["."] := by
    intro hparts
    rw [hparts, follow_append_eq_ok_iff] at hfollow
    obtain ⟨p, -, hdot⟩ := hfollow
    have hfolder := isFolder_of_follow hdot
    rw [follow_dot hfolder, follow_nil] at hdot
    obtain ⟨rfl, -⟩ := Prod.mk.inj (Except.ok.inj hdot)
    exact hplace hfolder
  have hne : last ≠ "" := by
    rintro rfl
    by_cases hinit : init = []
    · subst hinit
      exact hpath (eq_empty_of_splitSlashes hsplit)
    · exact hdots (partsOf_of_slash hsplit hinit)
  have hdot : last ≠ "." := by
    rintro rfl
    exact hdots (partsOf_of_last hsplit hne)
  have hmem : last ∈ splitSlashes path := by simp [hsplit]
  rw [partsOf_of_last hsplit hne, follow_append_eq_ok_iff] at hfollow
  obtain ⟨⟨parent, left⟩, hparent, hlast⟩ := hfollow
  exact ⟨parent, left, last, ⟨hne, notMem_of_mem_splitSlashes hmem⟩, hdot, isFolder_of_follow hlast, init,
    hsplit, hparent⟩

/-- No link and no second name stands where a path ends. -/
def Direct (d : Disk) (path : String) : Prop :=
  ∀ place, d.entryOf path = .ok place → d.pointer? place = none

namespace Ends

variable {path last name ending : String} {parent : Place} {left : Nat}

theorem ne_empty (h : d.Ends path parent left last) : path ≠ "" := by
  rintro rfl
  obtain ⟨init, hsplit, -⟩ := h.split
  have hmem : last ∈ splitSlashes "" := by simp [hsplit]
  exact h.part.1 (List.mem_singleton.mp hmem)

theorem entryOf_eq (h : d.Ends path parent left last) : d.entryOf path = .ok (step parent last) := by
  obtain ⟨init, hsplit, hparent⟩ := h.split
  refine entryOf_eq_ok_iff.mpr ⟨h.ne_empty, parent, left, ?_, h.isFolder, ?_⟩
  · rw [partsOf_of_last hsplit h.part.1, List.dropLast_concat]
    exact hparent
  · rw [partsOf_of_last hsplit h.part.1, List.getLastD_concat]

theorem locate_eq (h : d.Ends path parent left last) :
    d.locate path = (d.follow left parent [last]).map (·.1) := by
  obtain ⟨init, hsplit, hparent⟩ := h.split
  rw [locate, if_neg (by simpa using h.ne_empty), partsOf_of_last hsplit h.part.1, follow_append, hparent]
  rfl

theorem locate_of_plain (h : d.Ends path parent left last)
    (hplain : d.pointer? (step parent last) = none) : d.locate path = .ok (step parent last) :=
  locate_of_entryOf h.entryOf_eq hplain

/-- Without links a path ends where its last part stands, or at the file that this is a second name of. -/
theorem exists_locate (h : d.Ends path parent left last)
    (hlinks : ∀ target, d.get? (step parent last) ≠ some (.link target)) :
    ∃ place, d.locate path = .ok place ∧
      (place = step parent last ∨ d.get? (step parent last) = some (.sameAs place)) := by
  obtain ⟨place, hfollow, hplace⟩ := exists_follow_singleton h.isFolder hlinks left
  refine ⟨place, ?_, hplace⟩
  rw [h.locate_eq, hfollow]
  rfl

theorem snd_splitLast (h : d.Ends path parent left last) : (splitLast path).2 = last := by
  obtain ⟨init, hsplit, -⟩ := h.split
  exact Files.snd_splitLast hsplit

theorem append (h : d.Ends path parent left last) (hslash : '/' ∉ ending.toList)
    (hlength : 2 < ending.length) : d.Ends (path ++ ending) parent left (last ++ ending) := by
  have hname := isName_append h.part hslash hlength
  obtain ⟨init, hsplit, hparent⟩ := h.split
  obtain ⟨init', last', hsplit', hmore⟩ := exists_last_part path
  obtain ⟨rfl, hlast⟩ := List.append_inj' (hsplit.symm.trans hsplit') rfl
  obtain rfl := List.singleton_inj.mp hlast
  refine ⟨hname.1, hname.2.1, h.isFolder, init, hmore ending hslash, ?_⟩
  rw [startFrom, head?_append h.ne_empty]
  exact hparent

theorem parts_ofText (h : d.Ends path parent left last) : ∃ init,
    (Path.ofText path).parts = init ++ [last] ∧
      d.follow linkLimit (startFrom d.here path) init = .ok (parent, left) := by
  obtain ⟨init, hsplit, hparent⟩ := h.split
  refine ⟨(init.filter (· ≠ "")).filter (· ≠ "."), ?_, follow_filter hparent⟩
  rw [Path.parts_ofText, filled, hsplit]
  simp [h.part.1, h.ne_dot]

theorem name_eq (h : d.Ends path parent left last) : (Path.ofText path).name = last := by
  obtain ⟨init, hparts, -⟩ := h.parts_ofText
  simp [Path.name, hparts]

/-- Another name in the place of the last part leads into the same folder. -/
theorem sibling (h : d.Ends path parent left last) (hname : IsName name) :
    d.Ends ((Path.ofText path).parent.join name).text parent left name := by
  obtain ⟨init, hparts, hparent⟩ := h.parts_ofText
  have hclean := Path.clean_ofText path
  have hinit : ∀ part ∈ init, IsPart part := fun part hpart =>
    hclean.parts part (by rw [hparts]; exact List.mem_append_left _ hpart)
  have hjoin : (Path.ofText path).parent.join name = ⟨(Path.ofText path).root, init ++ [name]⟩ := by
    rw [Path.join_eq _ hname.1 hname.2.1, Path.parent, hparts, List.dropLast_concat]
  have hjoined : Path.Clean ⟨(Path.ofText path).root, init ++ [name]⟩ :=
    ⟨hclean.root, List.forall_mem_append.mpr ⟨hinit, by simpa using hname.1⟩⟩
  rw [hjoin]
  obtain ⟨blanks, hblanks, hsplit⟩ := Path.splitSlashes_text hjoined (by simp)
  have hfilter : (blanks ++ init).filter (· ≠ "") = init := by
    rw [List.filter_append, List.filter_eq_nil_iff.mpr fun blank hmem => by simp [hblanks blank hmem],
      List.filter_eq_self.mpr fun part hmem => decide_eq_true (hinit part hmem).1, List.nil_append]
  refine ⟨hname.1, hname.2.1, h.isFolder, blanks ++ init, by rw [hsplit, List.append_assoc], ?_⟩
  rw [hfilter, startFrom_text hjoined]
  rw [← origin_ofText] at hparent
  exact hparent

theorem extended (h : d.Ends path parent left last) (hslash : '/' ∉ ending.toList)
    (hlength : 2 < ending.length) :
    d.Ends ((Path.ofText path).extended ending).text parent left (last ++ ending) := by
  rw [Path.extended, h.name_eq]
  exact h.sibling (isName_append h.part hslash hlength)

theorem step_ne_of_length_lt (h : d.Ends path parent left last) (hlonger : last.length < name.length) :
    step parent last ≠ parent ++ [name] := by
  intro heq
  rw [step, if_neg h.ne_dot] at heq
  split at heq
  next =>
    have hlengths := congrArg List.length heq
    simp only [List.length_append, List.length_singleton, List.length_dropLast] at hlengths
    omega
  next =>
    rw [List.singleton_inj.mp (List.append_cancel_left heq)] at hlonger
    exact Nat.lt_irrefl _ hlonger

theorem step_ne (h : d.Ends path parent left last) (hlength : 2 < ending.length) :
    step parent last ≠ parent ++ [last ++ ending] := by
  apply h.step_ne_of_length_lt
  rw [String.length_append]
  omega

end Ends

section Below

variable {path folder : String} {place : Place} {parts : List String}

/-- A path leads to the same place without the parts that say nothing. -/
theorem follow_ofText (h : d.locate path = .ok place) : ∃ left,
    d.follow linkLimit (startFrom d.here path) (Path.ofText path).parts = .ok (place, left) := by
  obtain ⟨-, left, hfollow⟩ := locate_eq_ok_iff.mp h
  refine ⟨left, ?_⟩
  have hfilter := follow_filter hfollow
  rw [Path.parts_ofText]
  rcases partsOf_eq path with hparts | hparts
  · rwa [hparts] at hfilter
  · rw [hparts, List.filter_append] at hfilter
    simpa using hfilter

/-- What is written below a path is followed from its place. -/
theorem locate_below {p : Path} (hp : p.Clean) (h : d.locate p.text = .ok place) :
    ∃ left, ∀ parts, (∀ part ∈ parts, IsPart part) → parts ≠ [] →
      d.locate (p.below parts).text = (d.follow left place parts).map (·.1) := by
  rw [locate_text hp, Traversal.map_eq_ok_iff] at h
  obtain ⟨⟨place, left⟩, hfollow, rfl⟩ := h
  have hplace : d.follow linkLimit (d.origin p) p.parts = .ok (place, left) := by
    split at hfollow
    next hnil =>
      rw [follow_dot (isFolder_of_follow hfollow)] at hfollow
      rwa [hnil]
    next => exact hfollow
  refine ⟨left, fun parts hparts hne => ?_⟩
  have hclean : (p.below parts).Clean := ⟨hp.root, List.forall_mem_append.mpr ⟨hp.parts, hparts⟩⟩
  have horigin : d.origin (p.below parts) = d.origin p := rfl
  have hbelow : (p.below parts).parts = p.parts ++ parts := rfl
  rw [locate_text hclean, horigin, hbelow, if_neg (by simp [hne]), follow_append, hplace]
  rfl

theorem partsOf_join (a : String) {b : String} (hb : b ≠ "") :
    partsOf (a ++ "/" ++ b) = filled a ++ partsOf b := by
  obtain ⟨init, last, hsplit, -⟩ := exists_last_part b
  have hjoin : splitSlashes (a ++ "/" ++ b) = (splitSlashes a ++ init) ++ [last] := by
    rw [splitSlashes_join, hsplit, List.append_assoc]
  by_cases hlast : last = ""
  · subst hlast
    have hinit : init ≠ [] := by
      rintro rfl
      exact hb (eq_empty_of_splitSlashes hsplit)
    rw [partsOf_of_slash hjoin (by simp [hinit]), partsOf_of_slash hsplit hinit, List.filter_append,
      filled, List.append_assoc]
  · rw [partsOf_of_last hjoin hlast, partsOf_of_last hsplit hlast, List.filter_append, filled,
      List.append_assoc]

theorem partsOf_joinText (hpath : path ≠ "") (hhead : path.toList.head? ≠ some '/') :
    partsOf (joinText folder path) = filled folder ++ partsOf path := by
  rw [joinText, if_neg hhead]
  split
  next hfolder =>
    rcases Bool.or_eq_true_iff.mp hfolder with hempty | hslash
    · rw [String.isEmpty_iff.mp hempty, String.empty_append, filled_empty, List.nil_append]
    · obtain ⟨rest, rfl⟩ := exists_of_getLast?_slash (of_decide_eq_true hslash)
      rw [partsOf_join _ hpath, filled_append_slash]
  next => rw [partsOf_join _ hpath]

theorem follow_filled (h : d.locate folder = .ok place) :
    ∃ left, d.follow linkLimit (startFrom d.here folder) (filled folder) = .ok (place, left) := by
  obtain ⟨-, left, hfollow⟩ := locate_eq_ok_iff.mp h
  refine ⟨left, ?_⟩
  rcases partsOf_eq folder with hparts | hparts
  · rwa [hparts] at hfollow
  · rw [hparts, follow_append_eq_ok_iff] at hfollow
    obtain ⟨p, hp, hdot⟩ := hfollow
    rw [follow_dot (isFolder_of_follow hdot), follow_nil] at hdot
    rw [hp, ← hdot]

theorem joinText_ne_empty (hfolder : folder ≠ "") : joinText folder path ≠ "" := by
  rw [joinText]
  split
  next hhead =>
    rintro rfl
    cases hhead
  next => split <;> simp [hfolder]

theorem locate_joinText (h : d.locate folder = .ok place) :
    ∃ left, ∀ parts, (∀ part ∈ parts, IsPart part) → parts ≠ [] →
      d.locate (joinText folder (Path.text ⟨"", parts⟩)) = (d.follow left place parts).map (·.1) := by
  obtain ⟨left, hfollow⟩ := follow_filled h
  refine ⟨left, fun parts hparts hne => ?_⟩
  have hfolder := (locate_eq_ok_iff.mp h).1
  have hclean : Path.Clean ⟨"", parts⟩ := ⟨.inl rfl, hparts⟩
  have hhead : (Path.text ⟨"", parts⟩).toList.head? ≠ some '/' :=
    (Path.head?_text hclean).not.mpr (by simp)
  have htext : partsOf (Path.text ⟨"", parts⟩) = parts := by
    rw [Path.partsOf_text hclean, if_neg hne]
  have hpath : Path.text ⟨"", parts⟩ ≠ "" := by
    intro hempty
    rw [hempty] at htext
    exact hne htext.symm
  have hstart : startFrom d.here (joinText folder (Path.text ⟨"", parts⟩)) = startFrom d.here folder := by
    rw [startFrom, startFrom, head?_joinText hfolder hhead]
  have hjoined : ¬ (joinText folder (Path.text ⟨"", parts⟩)).isEmpty = true := by
    simpa using joinText_ne_empty hfolder
  rw [locate, if_neg hjoined, hstart, partsOf_joinText hpath hhead, htext, follow_append, hfollow]
  rfl

end Below

end Disk

end Pseudonym.Files
