import SshKeySync.AuthorizedKeys.Tidy
import SshKeySync.Runtime.KeysGranted

/-! One `authorized_keys` file, the daemons that write to it, of one group or of several, and the user
who edits it. What the user has written stays as long as no save misses the file, and the block is that of
the last writer alone. -/
namespace SshKeySync.Runtime.SharedFile
open RustStd Transport Keys AuthorizedKeys Parties DaemonProcess

variable {ι : Type}

structure Account (ι : Type) where
  file : Option Bytes
  world : World ι State Output

/-- The user replaces the file or removes it, or a daemon takes a step. A daemon that fails to save may
have replaced the file before it failed. -/
inductive Change (ι : Type) where
  | edit (file : Option Bytes)
  | act (i : ι) (e : Event) (replaced : Bool)

/-- What has happened to the file: who has written it, with which keys, or that it was written by one who
had not seen it. -/
inductive Entry (ι : Type) where
  | edited (file : Option Bytes)
  | unseen
  | written (i : ι) (managedKeys : HashMap Str Str)

/-- A save finds the file as it stands, or none where it cannot tell. -/
def Finds (file : Option Bytes) : Event → Bool
  | .save _ found _ => found = file || found = none
  | _ => true

def missed (file : Option Bytes) : Event → List (Entry ι)
  | .save _ none _ => if file = none then [] else [.unseen]
  | _ => []

def replacement (d : Daemon) (s : State) (replaced : Bool) : Event → Option Str
  | .save keyOrder found saved =>
    if d.config.dryRun || !(saved || replaced) then none
    else (d.applyManagedBlock (HashMap.iterate keyOrder s.managedKeys) found true).toOption
  | _ => none

/-- The next change; nothing comes between what a save reads and what it writes. -/
def step [DecidableEq ι] (P : Auth.Primitives) (d : ι → Daemon) (a : Account ι) :
    Change ι → Option (List (Entry ι) × Account ι)
  | .edit file => some ([.edited file], { a with file })
  | .act i e replaced =>
    if Finds a.file e then
      (act (fun i => DaemonProcess.step P (d i)) a.world (i, e)).map fun world =>
        match replacement (d i) (a.world.state i) replaced e with
        | some text => (missed a.file e ++ [.written i (a.world.state i).managedKeys], ⟨some (utf8 text), world⟩)
        | none => ([], { a with world })
    else none

def TidyFile (file : Option Bytes) : Prop := ∃ text, fileText file = some text ∧ Tidy (lines text)

/-- The user leaves a tidy file, and no daemon receives an envelope that is forged. -/
def Allowed (P : Auth.Primitives) (d : ι → Daemon) (a : Account ι) : Change ι → Prop
  | .edit file => TidyFile file
  | .act i e _ => Unforged P d a.world.sent i e

/-- A file that goes unseen is as good as removed. -/
def Entry.edit : Entry ι → Option (Option Bytes)
  | .edited file => some file
  | .unseen => some none
  | .written _ _ => none

/-- The file as the user has left it last, which at first is the file that was there. What a daemon has not
seen is gone. -/
def lastEdited (found : Option Bytes) (log : List (Entry ι)) : Option Bytes :=
  (log.filterMap Entry.edit).getLast?.getD found

/-- The block holds the keys of the last writer, which are those of its group, or is the user's. -/
def BlockOf (d : ι → Daemon) (found : Option Bytes) (log : List (Entry ι)) (text : Str) : Prop :=
  match log.getLast? with
  | some (.written i managedKeys) =>
    (∀ key, key ∈ blockLines (lines text) ↔ ∃ p, managedKeys.lookup p = some key) ∧
      ∀ key ∈ blockLines (lines text), GroupKey d i key
  | _ => fileText (lastEdited found log) = some text

/-- The file is tidy, with the user lines of the last edit and the block of the last writer. -/
def Kept (d : ι → Daemon) (found : Option Bytes) (log : List (Entry ι)) (file : Option Bytes) : Prop :=
  ∃ text edited, fileText file = some text ∧ fileText (lastEdited found log) = some edited ∧ Tidy (lines text) ∧
    userLines (lines text) = userLines (lines edited) ∧ BlockOf d found log text

section
variable {P : Auth.Primitives} {d : ι → Daemon} {found file : Option Bytes} {log : List (Entry ι)} {i : ι} {s : State}

private theorem mem_block_iff {order : HashMap.Iteration Str} (h : Owned d i s) (key : Str) :
    key ∈ normalizedKeys (HashMap.iterate order s.managedKeys) ↔ ∃ p, s.managedKeys.lookup p = some key := by
  have hnormal {p source : Str} (hp : s.managedKeys.lookup p = some source) :
      normalizePublicKey source = .ok source := by
    obtain ⟨j, -, rfl⟩ := h.keys p source hp
    exact (d j).service.normalized
  rw [mem_normalizedKeys]
  constructor
  · rintro ⟨source, hmem, hsource⟩
    obtain ⟨p, hp⟩ := HashMap.mem_iterate.mp hmem
    cases (hnormal hp).symm.trans hsource
    exact ⟨p, hp⟩
  · rintro ⟨p, hp⟩
    exact ⟨key, HashMap.mem_iterate.mpr ⟨p, hp⟩, hnormal hp⟩

private theorem of_replacement {replaced : Bool} {e : Event} {text : Str}
    (h : replacement (d i) s replaced e = some text) (hfinds : Finds file e = true) :
    ∃ order content, upsertManagedBlock content (HashMap.iterate order s.managedKeys) = .ok text ∧
      (fileText file = some content ∧ missed file e = ([] : List (Entry ι)) ∨
        content = [] ∧ missed file e = [(.unseen : Entry ι)]) := by
  cases e with
  | save keyOrder found saved =>
    rw [replacement] at h
    split at h
    · cases h
    · cases hupdate : (d i).applyManagedBlock (HashMap.iterate keyOrder s.managedKeys) found true with
      | error error =>
        rw [hupdate] at h
        cases h
      | ok updated =>
        rw [hupdate] at h
        cases h
        obtain ⟨-, content, hcontent, hupsert⟩ := Daemon.applyManagedBlock_eq_ok_iff.mp hupdate
        refine ⟨keyOrder, content, hupsert, ?_⟩
        rw [Finds, Bool.or_eq_true, decide_eq_true_eq, decide_eq_true_eq] at hfinds
        cases found with
        | some bytes =>
          obtain rfl := hfinds.resolve_right fun hnone => by cases hnone
          exact Or.inl ⟨hcontent, rfl⟩
        | none =>
          cases hcontent
          cases file with
          | none => exact Or.inl ⟨rfl, rfl⟩
          | some bytes => exact Or.inr ⟨rfl, rfl⟩
  | _ => cases h

private theorem lastEdited_written (managedKeys : HashMap Str Str) :
    lastEdited found (log ++ [.written i managedKeys]) = lastEdited found log := by
  rw [lastEdited, List.filterMap_append, List.filterMap_cons_none rfl, List.filterMap_nil, List.append_nil,
    lastEdited]

private theorem kept_edited {entry : Entry ι} (h : TidyFile file) (hedit : entry.edit = some file) :
    Kept d found (log ++ [entry]) file := by
  obtain ⟨text, htext, htidy⟩ := h
  have hedited : lastEdited found (log ++ [entry]) = file := by
    rw [lastEdited, List.filterMap_append, List.filterMap_cons_some hedit, List.filterMap_nil, List.getLast?_concat]
    rfl
  refine ⟨text, text, htext, hedited.symm ▸ htext, htidy, rfl, ?_⟩
  rw [BlockOf, List.getLast?_concat, hedited]
  cases entry with
  | written i managedKeys => cases hedit
  | edited file => exact htext
  | unseen => exact htext

private theorem tidyFile_none : TidyFile none := ⟨[], rfl, Or.inl (List.forall_mem_nil _), List.forall_mem_nil _⟩

private theorem kept_written (h : Kept d found log file) (howned : Owned d i s) {order : HashMap.Iteration Str}
    {content text : Str} (hcontent : fileText file = some content)
    (hupsert : upsertManagedBlock content (HashMap.iterate order s.managedKeys) = .ok text) :
    Kept d found (log ++ [.written i s.managedKeys]) (some (utf8 text)) := by
  obtain ⟨content', edited, hcontent', hedited, htidy, huser, -⟩ := h
  obtain rfl := Option.some.inj (hcontent'.symm.trans hcontent)
  obtain ⟨htidy', huser', hblock⟩ := tidy_upsert htidy hupsert
  refine ⟨text, edited, fromUtf8_utf8 text, ?_, htidy', huser'.trans huser, ?_⟩
  · rwa [lastEdited_written]
  · rw [BlockOf, List.getLast?_concat]
    dsimp only
    rw [hblock]
    refine ⟨mem_block_iff howned, fun key hkey => ?_⟩
    obtain ⟨p, hp⟩ := (mem_block_iff howned key).mp hkey
    exact howned.keys p key hp

end

section
variable [DecidableEq ι] {P : Auth.Primitives} {d : ι → Daemon} {found : Option Bytes}

private theorem kept_step {s s' : List (Entry ι) × Account ι} {c : Change ι}
    (h : s.2.world.Sound (Owned d) (Proper P d) ∧ Kept d found s.1 s.2.file) (hallowed : Allowed P d s.2 c)
    (hstep : logged (step P d) s c = some s') :
    s'.2.world.Sound (Owned d) (Proper P d) ∧ Kept d found s'.1 s'.2.file := by
  obtain ⟨hsound, hkept⟩ := h
  obtain ⟨out, hout, hlog⟩ := logged_eq_some_iff.mp hstep
  obtain ⟨log, a⟩ := s
  obtain ⟨log', a'⟩ := s'
  obtain rfl : log' = log ++ out := hlog
  cases c with
  | edit file =>
    cases hout
    exact ⟨hsound, kept_edited hallowed rfl⟩
  | act i e replaced =>
    rw [step, Option.ite_none_right_eq_some] at hout
    obtain ⟨hfinds, hout⟩ := hout
    obtain ⟨world, hact, hout⟩ := Option.map_eq_some_iff.mp hout
    have hsound' : world.Sound (Owned d) (Proper P d) := sound_act (e := (i, e)) hsound hallowed hact
    cases htext : replacement (d i) (a.world.state i) replaced e with
    | none =>
      rw [htext] at hout
      cases hout
      rw [List.append_nil]
      exact ⟨hsound', hkept⟩
    | some text =>
      rw [htext] at hout
      cases hout
      refine ⟨hsound', ?_⟩
      obtain ⟨order, content, hupsert, ⟨hcontent, hseen⟩ | ⟨rfl, hmissed⟩⟩ := of_replacement htext hfinds
      · rw [hseen]
        exact kept_written hkept (hsound.state i) hcontent hupsert
      · rw [hmissed, ← List.append_assoc]
        exact kept_written (kept_edited tidyFile_none rfl) (hsound.state i) rfl hupsert

/-- However daemons and edits alternate, the file keeps the user's lines of the last edit as long as every save
sees it, and its block is that of the daemon that has written last. -/
theorem shared_file_kept {startedAt : ι → UInt64} {changes : List (Change ι)} {log : List (Entry ι)} {a : Account ι}
    (hfound : TidyFile found)
    (hguard : Runs.Guarded (logged (step P d)) (fun s c => Allowed P d s.2 c) ([], ⟨found, groupStart d startedAt⟩)
      changes)
    (hrun : Runs.run (logged (step P d)) ([], ⟨found, groupStart d startedAt⟩) changes = some (log, a)) :
    Kept d found log a.file := by
  obtain ⟨text, htext, htidy⟩ := hfound
  have hstart : (groupStart d startedAt).Sound (Owned d) (Proper P d) ∧ Kept d found [] found :=
    ⟨sound_groupStart startedAt, text, text, htext, htext, htidy, rfl, htext⟩
  have hkept : a.world.Sound (Owned d) (Proper P d) ∧ Kept d found log a.file :=
    @Runs.invariant_run _ _ _ _ (fun s => s.2.world.Sound (Owned d) (Proper P d) ∧ Kept d found s.1 s.2.file) _ _ _
      (fun _ _ _ => kept_step) hstart hguard hrun
  exact hkept.2

end

private def ownLine : Option Bytes := some (utf8 "ssh-rsa AA me".toList)

private def twoLines : Option Bytes := some (utf8 "ssh-rsa AA me\nssh-rsa CC you".toList)

private def knowingB : Bool → Daemon := pair ["node-b@10.0.0.2:2222".toList]

private def untilAsked : List (Change Bool) := .edit ownLine :: [(true, .announce 1000 1), (true, .noConnection),
  (true, .noDatagram 1000 (.identity _) (.identity _)), (true, .save (.identity _) ownLine true),
  (true, .announce 1001 6), (true, .pause false), (false, .announce 1000 2), (false, .noConnection),
  (false, .noDatagram 1000 (.identity _) (.identity _)), (false, .post 1000 3)].map fun e => .act e.1 e.2 false

private def untilAnswered : List (Change Bool) := [.act true (.connection [bytesToB] 1000 4) false,
  .act false (.answer (some (keyResponse .standard nodeB 1000 (nextNonce 4)))) false]

private def untilWritten : List (Change Bool) :=
  [.edit twoLines, .act false (.save (.identity _) twoLines true) false]

private theorem tidyFile_lines : TidyFile ownLine ∧ TidyFile twoLines := by
  constructor
  · refine ⟨"ssh-rsa AA me".toList, fromUtf8_utf8 _, Or.inl (by decide), ?_⟩
    rw [KeepsForm]
    decide
  · refine ⟨"ssh-rsa AA me\nssh-rsa CC you".toList, fromUtf8_utf8 _, Or.inl (by decide), ?_⟩
    rw [KeepsForm]
    decide

private def Quiet : Change Bool → Prop
  | .edit file => TidyFile file
  | .act _ e _ => e.envelope = none

private theorem allowed_of_quiet {changes : List (Change Bool)} (h : ∀ c ∈ changes, Quiet c)
    (s : List (Entry Bool) × Account Bool) :
    Runs.Guarded (logged (step .standard knowingB)) (fun s c => Allowed .standard knowingB s.2 c) s changes := by
  refine Runs.guarded_of_imp (Runs.guarded_of_forall (fun _ _ => trivial) s changes) fun s c hc _ => ?_
  cases c with
  | edit file => exact h _ hc
  | act i e replaced => exact unforged_of_unread (h _ hc)

private theorem run_untilAsked : ∃ a, Runs.run (logged (step .standard knowingB))
      ([], ⟨none, groupStart knowingB fun _ => 1000⟩) untilAsked = some ([.edited ownLine, .written true ∅], a) ∧
    (false, Output.post endpointB requestToB) ∈ a.world.sent ∧ (a.world.state true).stage = .serving ∧
    (a.world.state false).stage = .awaiting 1000 endpointB [] ∧ (a.world.state false).managedKeys = ∅ := by
  refine ⟨_, rfl, ?_, rfl, rfl, rfl⟩
  exact List.mem_append_right _ (List.mem_singleton_self _)

private def withB : HashMap Str Str := AList.insert "node-b".toList nodeB.publicKey ∅

private theorem answered_withB {s : State} (hkeys : s.managedKeys = ∅) :
    s.answered .standard (knowingB false) endpointB (some (keyResponse .standard nodeB 1000 (nextNonce 4))) =
      { s with managedKeys := withB } := by
  have hverified := HttpKeyExchangeService.verifyAndParsePublicKeyResponse_publicKeyResponse (P := .standard)
    (s := nodeA) (t := nodeB) rfl rfl (by decide) (by decide) 1000 (nextNonce 4)
  have hread : readAnswer .standard (knowingB false).service (some (keyResponse .standard nodeB 1000 (nextNonce 4))) =
      .ok _ := readAnswer_eq_ok_iff.mpr ⟨_, answerEnvelope_keyResponse (by decide) (by decide) 1000 4, hverified⟩
  rw [State.answered, hread, hkeys]
  rfl

private theorem act_of_step {a a' : Account Bool} {i replaced : Bool} {e : Event} {out : List (Entry Bool)}
    (h : step .standard knowingB a (.act i e replaced) = some (out, a')) :
    act (fun i => DaemonProcess.step .standard (knowingB i)) a.world (i, e) = some a'.world := by
  rw [step, Option.ite_none_right_eq_some] at h
  obtain ⟨world, hact, hnext⟩ := Option.map_eq_some_iff.mp h.2
  rw [hact]
  cases hreplacement : replacement (knowingB i) (a.world.state i) replaced e with
  | none =>
    rw [hreplacement] at hnext
    cases hnext
    rfl
  | some text =>
    rw [hreplacement] at hnext
    cases hnext
    rfl

private theorem step_quiet {a : Account Bool} {i : Bool} {e : Event} {out : List Output} {s' : State}
    (hfinds : Finds a.file e = true) (hnone : replacement (knowingB i) (a.world.state i) false e = none)
    (hsteps : Steps .standard (knowingB i) (a.world.state i) e out s') :
    step .standard knowingB a (.act i e false) = some ([], { a with world := a.world.set i (out, s') }) := by
  have hact : act (fun i => DaemonProcess.step .standard (knowingB i)) a.world (i, e) = _ := act_of_steps hsteps
  rw [step, if_pos hfinds, hact, Option.map_some, hnone]

private theorem step_written {a : Account Bool} {i : Bool} {e : Event} {out : List Output} {s' : State} {text : Str}
    (hfinds : Finds a.file e = true) (htext : replacement (knowingB i) (a.world.state i) false e = some text)
    (hseen : missed a.file e = ([] : List (Entry Bool)))
    (hsteps : Steps .standard (knowingB i) (a.world.state i) e out s') :
    step .standard knowingB a (.act i e false) =
      some ([.written i (a.world.state i).managedKeys], ⟨some (utf8 text), a.world.set i (out, s')⟩) := by
  have hact : act (fun i => DaemonProcess.step .standard (knowingB i)) a.world (i, e) = _ := act_of_steps hsteps
  rw [step, if_pos hfinds, hact, Option.map_some, htext, hseen, List.nil_append]

private theorem run_untilAnswered {log : List (Entry Bool)} {a : Account Bool}
    (hserving : (a.world.state true).stage = .serving)
    (hstage : (a.world.state false).stage = .awaiting 1000 endpointB [])
    (hkeys : (a.world.state false).managedKeys = ∅) :
    ∃ a', Runs.run (logged (step .standard knowingB)) (log, a) untilAnswered = some (log, a') ∧
      (a'.world.state false).stage = .saving 1000 ∧ (a'.world.state false).managedKeys = withB := by
  have hreplied := step_quiet (a := a) rfl rfl (.replied hserving connectionReply_bytesToB)
  have hother : (a.world.set true ([Output.reply (.signed responseOfB)], a.world.state true)).state false =
    a.world.state false := World.set_state_of_ne Bool.false_ne_true
  rw [← hother] at hstage hkeys
  generalize a.world.set true ([Output.reply (.signed responseOfB)], a.world.state true) = w at *
  have hread : Steps .standard (knowingB false) (w.state false)
    (.answer (some (keyResponse .standard nodeB 1000 (nextNonce 4)))) [] _ := .answered hstage
  rw [answered_withB hkeys] at hread
  have hanswered := step_quiet (a := { a with world := w }) rfl rfl hread
  rw [untilAnswered, Runs.run_cons, logged, hreplied, Option.map_some, Option.bind_some, Runs.run_cons, logged,
    hanswered, Option.map_some, Option.bind_some, List.append_nil, List.append_nil]
  refine ⟨_, rfl, ?_, ?_⟩
  · rw [World.set_state_self]
    rfl
  · rw [World.set_state_self]

private theorem run_untilWritten {log : List (Entry Bool)} {a : Account Bool}
    (hstage : (a.world.state false).stage = .saving 1000) (hkeys : (a.world.state false).managedKeys = withB) :
    ∃ a' content, Runs.run (logged (step .standard knowingB)) (log, a) untilWritten =
      some (log ++ [.edited twoLines, .written false withB], a') ∧ a'.file = some (utf8 content) := by
  obtain ⟨content, hfile⟩ : ∃ content, (knowingB false).applyManagedBlock
      (HashMap.iterate (.identity _) withB) twoLines true = .ok content := ⟨_, rfl⟩
  have hreplacement : replacement (knowingB false) (a.world.state false) false (.save (.identity _) twoLines true) =
      some content := by
    rw [replacement, hkeys, hfile]
    rfl
  rw [← hkeys] at hfile
  have hwritten := step_written (a := { a with file := twoLines }) (by simp [Finds]) hreplacement rfl
    (.written hstage rfl hfile)
  rw [untilWritten, Runs.run_cons, logged, step, Option.map_some, Option.bind_some, Runs.run_cons, logged, hwritten,
    Option.map_some, Option.bind_some, List.append_assoc, hkeys]
  exact ⟨_, content, rfl, rfl⟩

/-- Two daemons write in turn, with an edit between them, and the last one has learnt a key. -/
theorem shared_file_kept_pair : ∃ a text, Runs.run (logged (step .standard knowingB))
      ([], ⟨none, groupStart knowingB fun _ => 1000⟩) (untilAsked ++ untilAnswered ++ untilWritten) =
        some ([.edited ownLine, .written true ∅, .edited twoLines, .written false withB], a) ∧
    a.file = some (utf8 text) ∧ nodeB.publicKey ∈ blockLines (lines text) ∧
    userLines (lines text) = ["ssh-rsa AA me".toList, "ssh-rsa CC you".toList] ∧
    Kept knowingB none [.edited ownLine, .written true ∅, .edited twoLines, .written false withB] a.file := by
  obtain ⟨a₁, hasked, hsent, hserving, hawaiting, hempty⟩ := run_untilAsked
  obtain ⟨a₂, hanswered, hsaving, hkeys⟩ := @run_untilAnswered [.edited ownLine, .written true ∅] a₁
    hserving hawaiting hempty
  obtain ⟨a, text, hwritten, hfile⟩ := @run_untilWritten [.edited ownLine, .written true ∅] a₂ hsaving hkeys
  have hrun : Runs.run (logged (step .standard knowingB)) ([], ⟨none, groupStart knowingB fun _ => 1000⟩)
      (untilAsked ++ untilAnswered ++ untilWritten) =
        some ([.edited ownLine, .written true ∅, .edited twoLines, .written false withB], a) := by
    rw [Runs.run_append, Runs.run_append, hasked, Option.bind_some, hanswered, Option.bind_some, hwritten]
    rfl
  have hguard : Runs.Guarded (logged (step .standard knowingB)) (fun s c => Allowed .standard knowingB s.2 c)
      ([], ⟨none, groupStart knowingB fun _ => 1000⟩) (untilAsked ++ untilAnswered ++ untilWritten) := by
    refine Runs.guarded_append.mpr ⟨Runs.guarded_append.mpr ⟨allowed_of_quiet ?_ _, fun s hs => ?_⟩,
      fun s _ => allowed_of_quiet ?_ _⟩
    · simp only [untilAsked, List.map_cons, List.map_nil, List.forall_mem_cons]
      exact ⟨tidyFile_lines.1, rfl, rfl, rfl, rfl, rfl, rfl, rfl, rfl, rfl, rfl, List.forall_mem_nil _⟩
    · obtain rfl := Option.some.inj (hasked.symm.trans hs)
      have hexchange := @guarded_exchangeB ["node-b@10.0.0.2:2222".toList] a₁.world hsent
      refine ⟨hexchange.1.1, fun s₁ h₁ => ⟨?_, fun _ _ => trivial⟩⟩
      obtain ⟨out, hout, -⟩ := logged_eq_some_iff.mp h₁
      exact (hexchange.2 s₁.2.world (act_of_step hout)).1.1
    · exact List.forall_mem_cons.mpr ⟨tidyFile_lines.2, List.forall_mem_singleton.mpr rfl⟩
  have hkept := shared_file_kept tidyFile_none hguard hrun
  have hstands := hkept
  rw [hfile] at hstands
  obtain ⟨text', edited, htext, hedited, -, huser, hblock, -⟩ := hstands
  obtain rfl : text = text' := Option.some.inj ((fromUtf8_utf8 text).symm.trans htext)
  obtain rfl : "ssh-rsa AA me\nssh-rsa CC you".toList = edited :=
    Option.some.inj ((fromUtf8_utf8 _).symm.trans hedited)
  refine ⟨a, text, hrun, hfile, (hblock nodeB.publicKey).mpr ⟨"node-b".toList, rfl⟩, ?_, hkept⟩
  rw [huser]
  decide

end SshKeySync.Runtime.SharedFile
