import Pseudonym.Proofs.Batch.Outcomes

namespace Pseudonym.Batch

open Files (Disk Path)
open Report (FileResult)

variable {σ α β : Type}

/-- A world in which more was said before. -/
def World.after (said : List Utterance) (w : World σ) : World σ := { w with said := said ++ w.said }

namespace Work

/-- Work that goes the same way whatever was said before it. -/
def Blind (work : Work σ α) : Prop :=
  ∀ said w, work (World.after said w) = ((work w).1, World.after said (work w).2)

namespace Blind

theorem pure (a : α) : Blind (Pure.pure a : Work σ α) := fun _ _ => rfl

theorem throw (e : Error) : Blind (MonadExcept.throw e : Work σ α) := fun _ _ => rfl

theorem disk : Blind (Work.disk : Work σ Disk) := fun _ _ => rfl

theorem tell (line : String) : Blind (Work.tell line : Work σ Unit) := by
  intro said w
  have happly : ∀ w : World σ,
      Work.tell line w = (.ok (), { w with said := w.said ++ [.out (line ++ "\n")] }) := fun _ => rfl
  rw [happly, happly]
  simp only [World.after, List.append_assoc]

theorem ofResult (x : Except Error α) : Blind (Work.ofResult x : Work σ α) := by
  intro said w
  rw [ofResult_apply, ofResult_apply]

theorem ask (f : Disk → Except FileFault α) : Blind (Work.ask f : Work σ α) := by
  intro said w
  rw [ask_apply, ask_apply]
  rfl

theorem change (f : Disk → Except FileFault Disk) : Blind (Work.change f : Work σ Unit) := by
  intro said w
  have hdisk : (World.after said w).disk = w.disk := rfl
  rw [change_apply, change_apply, hdisk]
  cases f w.disk <;> rfl

theorem makeFolders (path : String) : Blind (Work.makeFolders path : Work σ Unit) := fun _ _ => rfl

theorem bind {work : Work σ α} {next : α → Work σ β} (h : Blind work) (hnext : ∀ a, Blind (next a)) :
    Blind (work >>= next) := by
  intro said w
  rw [bind_apply, bind_apply, h said w]
  rcases work w with ⟨result, w₁⟩
  cases result with
  | error e => rfl
  | ok a => exact hnext a said w₁

theorem outcome {work : Work σ α} (h : Blind work) : Blind (Work.outcome work) := by
  intro said w
  rw [Work.outcome, Work.outcome, h said w]
  rfl

end Blind

end Work

open Work

variable {b : Batch σ} {r : FileResult}

theorem World.noted_after (said : List Utterance) (w : World σ) (notes : Log) :
    (World.after said w).noted notes = World.after said (w.noted notes) := by
  simp only [noted, after, List.append_assoc]

theorem blind_redactText (text hint : Value) : Blind (b.redactText text hint) := by
  intro said w
  have hnoted := World.noted_after said (w.withState
    (b.redactor.redact b.parser { text, hint, includeMapping := some true } w.state).state)
  exact Prod.ext rfl (hnoted _)

theorem blind_readText (path : String) : Blind (b.readText path) :=
  .bind (.ofResult _) fun _ => .bind (.ask _) fun _ => .bind (.ofResult _) fun _ =>
    .bind (.ofResult _) fun _ => .pure _

theorem blind_writeText (path text : String) : Blind (b.writeText path text) := by
  have hfill : Blind (b.fill path text) :=
    .bind (.ofResult _) fun _ => .bind (.change _) fun _ => .bind (.ofResult _) fun _ =>
      .bind (.ofResult _) fun _ => .change _
  rw [writeText_eq]
  split
  · exact .bind (.makeFolders _) fun _ => hfill
  · exact hfill

theorem blind_backUp (path : String) : Blind (backUp path : Work σ Unit) :=
  .bind (.change _) fun _ => .tell _

theorem blind_enter (e : Error) : Blind (enter r e : Work σ FileResult) := by
  have htell : ∀ text : String, Blind (do
      Work.tell ("Error: " ++ e.message)
      return r.withError text : Work σ FileResult) := fun text => .bind (.tell _) fun _ => .pure _
  cases e with
  | request _ => exact htell _
  | file f =>
      cases f with
      | nullByte => exact .throw _
      | _ => exact htell _
  | decode _ => exact htell _
  | encode _ => exact htell _
  | unwritable _ => exact htell _
  | _ => exact .throw _

theorem blind_attempt {work : Work σ α} {next : α → Work σ FileResult} (h : Blind work)
    (hnext : ∀ a, Blind (next a)) : Blind (attempt r work next) := by
  refine .bind h.outcome fun result => ?_
  cases result with
  | ok a => exact hnext a
  | error e => exact blind_enter e

theorem blind_writeOutput (output : String) (redaction : Redaction) :
    Blind (b.writeOutput r output redaction) := by
  refine .bind (.tell _) fun _ => blind_attempt (blind_writeText _ _) fun _ => ?_
  split
  · exact blind_attempt (.change _) fun _ => .bind (.tell _) fun _ => .pure _
  · exact .pure _

theorem blind_redactFile (input output : String) : Blind (b.redactFile r input output) := by
  have hbackup : Blind (if b.options.backup then backUp input else pure () : Work σ Unit) := by
    split
    · exact blind_backUp input
    · exact .pure ()
  refine blind_attempt hbackup fun _ => blind_attempt (.bind (.ask _) fun _ => .tell _) fun _ =>
    blind_attempt (blind_readText input) fun _ => blind_attempt (blind_redactText _ _) fun _ =>
      .bind (.tell _) fun _ => ?_
  split
  · exact blind_writeOutput _ _
  · exact blind_writeOutput _ _

theorem blind_processFile (input : String) (output : Option String) (language : Value) :
    Blind (b.processFile input output language) := by
  refine .bind .disk fun d => ?_
  split
  · exact .pure _
  · split
    · exact .pure _
    · cases output with
      | some path =>
          refine .bind (.pure path) fun _ => ?_
          cases language with
          | null => exact .bind (.ofResult _) fun _ => blind_redactFile _ _
          | _ => exact .bind (.pure _) fun _ => blind_redactFile _ _
      | none =>
          refine .bind (.ofResult _) fun _ => ?_
          cases language with
          | null => exact .bind (.ofResult _) fun _ => blind_redactFile _ _
          | _ => exact .bind (.pure _) fun _ => blind_redactFile _ _

theorem blind_processAll (root : Path) (output : String) (language : Value) (paths : List Path) :
    Blind (b.processAll root output language paths) := by
  induction paths with
  | nil => exact .pure _
  | cons path paths ih =>
      exact .bind (blind_processFile _ _ _) fun _ => .bind ih fun _ => .pure _

theorem blind_processFolder (folder : String) (output : Option String) (recursive : Bool)
    (language : Value) : Blind (b.processFolder folder output recursive language) := by
  have hfind : Blind (b.findFiles folder recursive) :=
    .bind (.ofResult _) fun _ => .bind .disk fun _ => .ofResult _
  exact .bind (.makeFolders _) fun _ => hfind.bind fun _ => .bind (.tell _) fun _ =>
    .bind (blind_processAll _ _ _ _) fun _ => .bind (.tell _) fun _ => .pure _

end Pseudonym.Batch
