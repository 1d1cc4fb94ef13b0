import Teensy41Ethernet.Ftpd.Deeds

/-!
# Two faults of the commands

A command line can make its handler fail in two ways that depend on the line alone: the
handler dereferences an argument that is not there, or the reply is longer than the buffer of
`send_msg`.  Every other fault comes from the state of the daemon.  This file finds out for each
command when it can stop with one of the two: the set of faults `E` is arbitrary but for these,
and each primitive and each handler stops with a fault in `E` only.
-/

namespace Teensy41Ethernet.Ftpd

open Lib

/-! ### Faults in a set -/

/-- The program stops, if at all, with a fault in `E`; the address of the control connection
stays the same. -/
abbrev FaultsIn (E : Fault → Prop) {α : Type} (m : FtpdM α) : Prop := Keeps Sys.localIp E m

/-- Every fault is in the set, except perhaps a null argument and an overflow. -/
def Lenient (E : Fault → Prop) : Prop := ∀ f, f ≠ .nullArg → f ≠ .overflow → E f

/-- The reply is too long for the buffer of `send_msg`: text, line end and terminator are more
than 1024 bytes. -/
def Overlong (text : Str) : Prop := (text ++ lit "\r\n").length + 1 > 1024

instance : DecidablePred Overlong := fun text =>
  inferInstanceAs (Decidable ((text ++ lit "\r\n").length + 1 > 1024))

section Primitives

variable {E : Fault → Prop} {s : Sys}

lemma Lenient.getMsg (hE : Lenient E) : FaultsIn E getMsg := fun _ =>
  wp_getMsg.mpr ⟨fun _ _ => rfl, fun _ => hE _ (by decide) (by decide)⟩

lemma Lenient.setMsg (hE : Lenient E) (f : MsgState → MsgState) : FaultsIn E (setMsg f) := fun _ =>
  wp_setMsg.mpr ⟨fun _ _ => rfl, fun _ => hE _ (by decide) (by decide)⟩

lemma Lenient.setData (hE : Lenient E) (d : ℕ) (f : DataState → DataState) :
    FaultsIn E (setData d f) := fun _ =>
  wp_setData.mpr ⟨fun _ _ => rfl, fun _ => hE _ (by decide) (by decide)⟩

lemma Lenient.freeData (hE : Lenient E) (d : ℕ) : FaultsIn E (freeData d) := fun _ =>
  wp_freeData.mpr ⟨fun _ _ => rfl, fun _ => hE _ (by decide) (by decide)⟩

lemma Lenient.closeFifo (hE : Lenient E) (d : ℕ) : FaultsIn E (closeFifo d) := fun _ =>
  wp_closeFifo.mpr ⟨fun _ _ => rfl, fun _ => hE _ (by decide) (by decide)⟩

lemma Lenient.checkMsgfs (hE : Lenient E) (d : ℕ) : FaultsIn E (checkMsgfs d) := fun _ =>
  wp_checkMsgfs.mpr ⟨fun _ _ => ⟨fun _ => rfl, fun _ => hE _ (by decide) (by decide)⟩,
    fun _ => hE _ (by decide) (by decide)⟩

lemma Lenient.checkPcb (hE : Lenient E) (pcb : Option ℕ) : FaultsIn E (checkPcb pcb) := fun _ =>
  wp_checkPcb.mpr ⟨fun _ _ _ _ => rfl, fun _ => hE _ (by decide) (by decide),
    fun _ _ _ => hE _ (by decide) (by decide)⟩

lemma Lenient.setPcb (hE : Lenient E) (pcb : Option ℕ) (f : Pcb → Pcb) :
    FaultsIn E (setPcb pcb f) := fun _ =>
  wp_setPcb.mpr ⟨fun _ => rfl, fun _ _ _ _ => rfl, fun _ _ _ => hE _ (by decide) (by decide)⟩

lemma Lenient.tcpClose (hE : Lenient E) (pcb : Option ℕ) : FaultsIn E (tcpClose pcb) := fun _ =>
  wp_tcpClose.mpr ⟨fun _ _ _ _ => rfl, fun _ => hE _ (by decide) (by decide),
    fun _ _ _ => hE _ (by decide) (by decide)⟩

lemma Lenient.checkDatafs (hE : Lenient E) : FaultsIn E checkDatafs := fun _ =>
  wp_checkDatafs.mpr ⟨fun _ _ => ⟨fun _ _ => rfl, fun _ => hE _ (by decide) (by decide)⟩,
    fun _ => hE _ (by decide) (by decide)⟩

lemma Lenient.dataFifo (hE : Lenient E) (d : ℕ) (env : Env) : FaultsIn E (dataFifo d env) := by
  unfold Ftpd.dataFifo
  cases sfifoInit 2000 env.mallocFifo with
  | none => exact keeps_throw (hE _ (by decide) (by decide))
  | some r => exact fun _ => rfl

lemma faultsIn_tcpNew (env : Env) : FaultsIn E (tcpNew env) := by
  unfold tcpNew
  exact keeps_ite (fun _ => rfl) (fun _ => rfl)

lemma Lenient.allocData (hE : Lenient E) : FaultsIn E allocData :=
  Keeps.bind keeps_get fun _ => Keeps.bind (fun _ => rfl) fun _ =>
    Keeps.bind (fun _ => rfl) fun _ => Keeps.bind (hE.setMsg _) fun _ => keeps_pure _

lemma faultsIn_vfsOpendir (path : Str) (env : Env) : FaultsIn E (vfsOpendir path env) := fun _ =>
  wp_vfsOpendir.mpr ⟨fun _ => rfl, fun _ _ => rfl⟩

/-- A reply overflows its buffer if it is too long. -/
lemma Lenient.sendMsg (hE : Lenient E) (dr : Drain) {text : Str}
    (hlong : Overlong text → E .overflow) : FaultsIn E (sendMsg dr text) := by
  intro s
  unfold Ftpd.sendMsg
  dsimp only
  rw [wp_ite]
  refine ⟨hlong, fun _ => ?_⟩
  refine Keeps.bind hE.getMsg (fun m => ?_) s
  exact keeps_ite (fun _ => rfl) (Keeps.bind (hE.setMsg _) fun _ => fun _ => rfl)

lemma not_overlong_of_mem {text : Str} (h : text ∈ fixedReplies) : ¬ Overlong text :=
  not_lt.mpr (fixedReplies_short text h)

/-- The reply repeats nothing. -/
lemma Lenient.sendFixed (hE : Lenient E) (dr : Drain) {text : Str} (h : text ∈ fixedReplies) :
    FaultsIn E (Ftpd.sendMsg dr text) :=
  hE.sendMsg dr fun hlong => absurd hlong (not_overlong_of_mem h)

end Primitives

/-! ### The common parts of the handlers -/

section Parts

variable {E : Fault → Prop} {env : Env}

lemma Lenient.ftpdDataclose (hE : Lenient E) (pcb : Option ℕ) (d : ℕ) :
    FaultsIn E (ftpdDataclose pcb d) :=
  Keeps.bind (hE.setPcb _ _) fun _ => Keeps.bind (hE.checkMsgfs _) fun _ =>
    Keeps.bind (hE.setMsg _) fun _ => Keeps.bind (hE.closeFifo _) fun _ =>
      Keeps.bind (hE.freeData _) fun _ => hE.tcpClose _

lemma Lenient.openDataconnection (hE : Lenient E) (dr : Drain) :
    FaultsIn E (openDataconnection dr env) := by
  refine Keeps.bind hE.getMsg fun m => keeps_ite (keeps_pure _) (keeps_ite ?_ ?_)
  · exact Keeps.bind (hE.setMsg _) fun _ =>
      Keeps.bind (hE.sendFixed _ (by simp [fixedReplies])) fun _ => keeps_pure _
  · refine Keeps.bind hE.allocData fun d => Keeps.bind (hE.setData _ _) fun _ => ?_
    refine Keeps.bind (hE.dataFifo _ _) fun _ => Keeps.bind (hE.setData _ _) fun _ => ?_
    refine Keeps.bind (faultsIn_tcpNew _) fun pcb => Keeps.bind (hE.setMsg _) fun _ => ?_
    refine Keeps.bind (hE.setPcb _ _) fun _ => Keeps.bind (hE.checkPcb _) fun _ => ?_
    exact Keeps.bind (hE.setPcb _ _) fun _ => keeps_pure _

lemma Lenient.installTransfer (hE : Lenient E) (f : DataState → DataState) (state : FtpdState) :
    FaultsIn E (installTransfer f state) :=
  Keeps.bind hE.checkDatafs fun _ => Keeps.bind (hE.setData _ _) fun _ => hE.setMsg _

lemma Lenient.cmdListCommon (hE : Lenient E) (shortlist : Bool) :
    FaultsIn E (cmdListCommon shortlist env) := by
  refine keeps_ite (hE.sendFixed _ (by simp [fixedReplies])) ?_
  refine Keeps.bind keeps_get fun s => Keeps.bind (faultsIn_vfsOpendir _ _) fun dir => ?_
  cases dir with
  | none => exact hE.sendFixed _ (by simp [fixedReplies])
  | some r =>
    refine Keeps.bind (hE.openDataconnection _) fun ready => keeps_ite ?_ (fun _ => rfl)
    exact Keeps.bind (hE.installTransfer _ _) fun _ => hE.sendFixed _ (by simp [fixedReplies])

lemma Lenient.startTransfer (hE : Lenient E) (file : VfsFile) (handle : ℕ) {text : Str}
    (hlong : Overlong text → E .overflow) (state : FtpdState) :
    FaultsIn E (startTransfer file handle text state env) := by
  refine Keeps.bind (hE.sendMsg _ hlong) fun _ => ?_
  exact Keeps.bind (hE.openDataconnection _) fun _ =>
    keeps_ite (hE.installTransfer _ _) fun _ => rfl

/-- Opening a file: the reply is formatted if the file could be opened. -/
lemma Lenient.openFile (hE : Lenient E) (arg : Str) {text : Str} (state : FtpdState)
    (hlong : env.openFile.isSome = true → Overlong text → E .overflow) :
    FaultsIn E (do
      match ← vfsOpen arg env with
      | none => Ftpd.sendMsg env.msg₁ msg550
      | some (file, h) => Ftpd.startTransfer file h text state env) := by
  intro s
  rw [wp_bind, wp_vfsOpen]
  refine ⟨fun _ => hE.sendFixed _ (by simp [fixedReplies]) _, fun file hfile => ?_⟩
  exact hE.startTransfer _ _ (hlong (by rw [hfile]; rfl)) _ _

lemma Lenient.changeDir (hE : Lenient E) (path : Str) : FaultsIn E (changeDir path env) := by
  refine Keeps.bind keeps_get fun s => Keeps.bind (fun _ => rfl) fun _ => keeps_ite ?_ ?_
  · exact keeps_throw (hE _ (by decide) (by decide))
  · refine Keeps.bind (fun _ => rfl) fun _ => hE.sendFixed _ ?_
    split
    · simp [fixedReplies]
    · simp [fixedReplies]

lemma Lenient.removePath (hE : Lenient E) (arg : Str) (call : Call) (ok : Bool) :
    FaultsIn E (removePath arg call ok env) := by
  refine Keeps.bind (fun _ => rfl) fun _ => keeps_ite ?_ (hE.sendFixed _ (by simp [fixedReplies]))
  refine Keeps.bind (fun _ => rfl) fun _ => hE.sendFixed _ ?_
  split
  · simp [fixedReplies]
  · simp [fixedReplies]

lemma Lenient.withArg (hE : Lenient E) (arg : Option Str) {body : Str → FtpdM Unit}
    (hbody : ∀ a ∈ arg, a ≠ [] → FaultsIn E (body a)) : FaultsIn E (withArg arg env body) := by
  cases arg with
  | none =>
    show FaultsIn E (Ftpd.sendMsg env.msg₁ msg501)
    exact hE.sendFixed _ (by simp [fixedReplies])
  | some a =>
    by_cases ha : a = []
    · rw [Ftpd.withArg, if_pos ha]
      exact hE.sendFixed _ (by simp [fixedReplies])
    · rw [Ftpd.withArg, if_neg ha]
      exact hbody a rfl ha

lemma Lenient.dropDatafs (hE : Lenient E) (d : ℕ) : FaultsIn E (dropDatafs d) :=
  Keeps.bind hE.getMsg fun _ => Keeps.bind (hE.ftpdDataclose _ _) fun _ => hE.setMsg _

lemma Lenient.freeMsg (hE : Lenient E) : FaultsIn E freeMsg := by
  refine Keeps.bind hE.getMsg fun m => ?_
  cases m.datafs with
  | none => exact fun _ => rfl
  | some d => exact Keeps.bind (hE.ftpdDataclose _ _) fun _ => fun _ => rfl

lemma Lenient.cmdAbrt (hE : Lenient E) (arg : Option Str) (env : Env) :
    FaultsIn E (cmdAbrt arg env) := by
  refine Keeps.bind hE.getMsg fun m => ?_
  cases m.datafs with
  | none => exact hE.setMsg _
  | some d =>
    refine Keeps.bind (hE.setPcb _ _) fun _ => Keeps.bind hE.freeMsg fun _ => ?_
    refine Keeps.bind hE.checkDatafs fun d => Keeps.bind (hE.closeFifo _) fun _ => ?_
    exact Keeps.bind (hE.freeData _) fun _ => Keeps.bind (hE.setMsg _) fun _ => hE.setMsg _

/-- The part of `cmd_pasv` after a port has been bound. -/
lemma Lenient.pasvListen (hE : Lenient E) (d i : ℕ) (port : UInt16) {s : Sys}
    (hlong : Overlong (msg227 s.localIp port) → E .overflow) :
    wp (pasvListen d i port env) (fun _ _ => True) E s := by
  unfold Ftpd.pasvListen
  rw [wp_bind, wp_setData]
  refine ⟨fun x hx => ?_, fun _ => hE _ (by decide) (by decide)⟩
  rw [wp_ite]
  refine ⟨fun _ => (hE.dropDatafs d).faults, fun _ => ?_⟩
  simp only [newPcb, wp_bind, wp_modify, wp_get, wp_setMsg, wp_setData, wp_pure]
  refine ⟨fun m _ => ⟨fun y _ => ?_, fun _ => hE _ (by decide) (by decide)⟩,
    fun _ => hE _ (by decide) (by decide)⟩
  exact (hE.sendMsg _ hlong).faults

/-- `cmd_pasv` can overflow if the text of reply 227 is too long. -/
lemma Lenient.cmdPasv (hE : Lenient E) (arg : Option Str) {s : Sys}
    (hlong : ∀ port, Overlong (msg227 s.localIp port) → E .overflow) :
    wp (cmdPasv arg env) (fun _ _ => True) E s := by
  unfold Ftpd.cmdPasv
  rw [wp_ite]
  refine ⟨fun _ => ?_, fun _ => ?_⟩
  · exact (Keeps.bind (hE.setMsg _) fun _ => hE.sendFixed _ (by simp [fixedReplies])).faults
  refine hE.allocData.wp_seq fun d s₁ h₁ => ?_
  refine (faultsIn_tcpNew env).wp_seq fun pcb s₂ h₂ => ?_
  refine (hE.setMsg _).wp_seq fun _ s₃ h₃ => ?_
  cases pcb with
  | none =>
    exact (Keeps.bind (hE.freeData _) fun _ => hE.sendFixed _ (by simp [fixedReplies])).faults
  | some i =>
    refine (hE.dataFifo d env).wp_seq fun fifo s₄ h₄ => ?_
    refine (hE.setData d _).wp_seq fun _ s₅ h₅ => ?_
    rw [wp_bind, wp_get, wp_bind, wp_get]
    cases bindLoop env.tcpBind s₅.port (2 ^ 16) s₅.port with
    | none => exact hE _ (by decide) (by decide)
    | some r =>
      obtain ⟨port, bound⟩ := r
      dsimp only
      rw [wp_bind, wp_modify]
      refine (hE.setMsg _).wp_seq fun _ s₆ h₆ => ?_
      have hip : s₆.localIp = s.localIp :=
        h₆.trans (h₅.trans (h₄.trans (h₃.trans (h₂.trans h₁))))
      cases bound with
      | false => exact (hE.dropDatafs d).faults
      | true => exact hE.pasvListen d i port (hip ▸ hlong port)

end Parts

/-! ### Commands -/

/-- The commands that dereference their argument without a check. -/
def Command.NeedsArg : Command → Prop
  | .port | .cwd | .retr | .stor | .type => True
  | _ => False

instance (c : Command) : Decidable c.NeedsArg :=
  c.casesOn (.isFalse id) (.isFalse id) (.isTrue trivial) (.isFalse id) (.isTrue trivial)
    (.isFalse id) (.isFalse id) (.isFalse id) (.isFalse id) (.isTrue trivial) (.isTrue trivial)
    (.isFalse id) (.isFalse id) (.isFalse id) (.isTrue trivial) (.isFalse id) (.isFalse id)
    (.isFalse id) (.isFalse id) (.isFalse id) (.isFalse id) (.isFalse id)

/-- The reply of `cmd_pwd`. -/
def pwdText (cwd : Str) : Str := lit "257 \"" ++ cwd ++ lit "\" is current directory."

/-- The reply of `cmd_mkd` to a directory that was created. -/
def mkdText (arg : Str) : Str := lit "257 \"" ++ arg ++ lit "\" created."

/-- The text with something of the client's in it that a command formats: the working directory
or its argument. -/
def Command.longText (c : Command) (arg : Option Str) (env : Env) (s : Sys) : Option Str :=
  match c with
  | .pwd => if env.strdup then some (pwdText s.cwd) else none
  | .retr => if (retrStat env).1 && env.openFile.isSome then arg.map (retrText · env) else none
  | .stor => if env.openFile.isSome then arg.map storText else none
  | .mkd => if env.mkdir then (arg.filter (· ≠ [])).map mkdText else none
  | _ => none

lemma length_dec_le : ∀ n < 256, (dec n).length ≤ 3 := by decide +kernel

/-- The reply of `cmd_pasv` is short: the address has four bytes. -/
lemma not_overlong_msg227 {ip : List UInt8} (hip : ip.length = 4) (port : UInt16) :
    ¬ Overlong (msg227 ip port) := by
  match ip, hip with
  | [a, b, c, d], _ =>
    have hhi : (port >>> 8).toNat < 256 := by
      have := port.toNat_lt
      rw [UInt16.toNat_shiftRight, Nat.shiftRight_eq_div_pow]
      change port.toNat / 2 ^ 8 < 256
      omega
    have hlo : (port &&& 0xff).toNat < 256 := by
      rw [UInt16.toNat_and]
      exact lt_of_le_of_lt Nat.and_le_right (by decide)
    have ha := length_dec_le _ a.toNat_lt
    have hb := length_dec_le _ b.toNat_lt
    have hc := length_dec_le _ c.toNat_lt
    have hd := length_dec_le _ d.toNat_lt
    have hp := length_dec_le _ hhi
    have hq := length_dec_le _ hlo
    have hhead : (lit "227 Entering Passive Mode (").length = 27 := by decide
    have hcomma : (lit ",").length = 1 := by decide
    have htail : (lit ").").length = 2 := by decide
    have hcrlf : (lit "\r\n").length = 2 := by decide
    rw [Overlong, not_lt]
    simp only [msg227, List.map_cons, List.map_nil, List.flatten_cons, List.flatten_nil,
      List.length_append, List.length_nil, hhead, hcomma, htail, hcrlf]
    omega

/-- **The faults of a command.**  It stops with a null argument only if it needs one and has none,
and it overflows only by a text of the client's. -/
theorem Command.run_faults {E : Fault → Prop} (hE : Lenient E) {s : Sys} (c : Command)
    {arg : Option Str} {env : Env} (hip : ¬ E .overflow → s.localIp.length = 4)
    (hnull : c.NeedsArg → arg = none → E .nullArg)
    (hlong : ∀ text ∈ c.longText arg env s, Overlong text → E .overflow) :
    wp (c.run arg env) (fun _ _ => True) E s := by
  have hfixed : ∀ text ∈ fixedReplies, wp (sendMsg env.msg₁ text) (fun _ _ => True) E s :=
    fun text htext => (hE.sendFixed _ htext).faults
  cases c with
  | user | pass | quit =>
    exact (Keeps.bind (hE.sendFixed _ (by simp [fixedReplies])) fun _ => hE.setMsg _).faults
  | port =>
    cases arg with
    | none => exact hnull trivial rfl
    | some a =>
      simp only [Command.run, cmdPort, checkStr, pure_bind]
      split
      · exact (Keeps.bind (hE.setMsg _) fun _ => hE.sendFixed _ (by simp [fixedReplies])).faults
      · exact hfixed msg501 (by simp [fixedReplies])
  | cwd =>
    cases arg with
    | none => exact hnull trivial rfl
    | some path => exact (hE.changeDir path).faults
  | cdup => exact (hE.changeDir _).faults
  | pwd =>
    simp only [Command.run, cmdPwd]
    rw [wp_ite]
    refine ⟨fun hdup => ?_, fun _ => trivial⟩
    rw [wp_bind, wp_get]
    exact (hE.sendMsg _ (hlong (pwdText s.cwd) (if_pos hdup))).faults
  | nlst => exact (hE.cmdListCommon true).faults
  | list => exact (hE.cmdListCommon false).faults
  | retr =>
    cases arg with
    | none => exact hnull trivial rfl
    | some a =>
      simp only [Command.run, cmdRetr, checkStr, pure_bind]
      rw [wp_bind, wp_note, wp_ite]
      refine ⟨fun _ => ?_, fun hreg => ?_⟩
      · exact (hE.sendFixed env.msg₁ (by simp [fixedReplies])).faults
      · refine (hE.openFile a .retr fun hopen => hlong _ ?_).faults
        rw [Bool.not_eq_true', Bool.not_eq_false] at hreg
        simp only [Command.longText, hreg, hopen]
        rfl
  | stor =>
    cases arg with
    | none => exact hnull trivial rfl
    | some a =>
      refine (hE.openFile a .stor fun hopen => hlong _ ?_).faults
      simp only [Command.longText, hopen]
      rfl
  | noop => exact hfixed msg200 (by simp [fixedReplies])
  | syst => exact hfixed (msg214SYST (lit "UNIX")) (by simp [fixedReplies])
  | mode => exact hfixed msg502 (by simp [fixedReplies])
  | rnfr | rnto =>
    have htodo : FaultsIn E (sendMsg env.msg₁ (lit "TODO")) :=
      hE.sendMsg _ fun htext => absurd htext (by decide)
    exact htodo.faults
  | abrt => exact (hE.cmdAbrt arg env).faults
  | type =>
    cases arg with
    | none => exact hnull trivial rfl
    | some a =>
      refine hfixed _ ?_
      split
      · simp [fixedReplies]
      · simp [fixedReplies]
  | mkd =>
    have hmkd : FaultsIn E (cmdMkd arg env) := by
      refine hE.withArg arg fun a ha hne => Keeps.bind (fun _ => rfl) fun _ =>
        hE.sendMsg _ fun htext => ?_
      split at htext
      · next hmkdir =>
        have harg : arg.filter (· ≠ []) = some a := by
          rw [Option.mem_def.mp ha]
          exact Option.filter_some_pos (decide_eq_true hne)
        refine hlong _ ?_ htext
        simp only [Command.longText, hmkdir, harg]
        rfl
      · exact absurd htext (not_overlong_of_mem (by simp [fixedReplies]))
    exact hmkd.faults
  | rmd => exact (hE.withArg arg fun a _ _ => hE.removePath _ _ _).faults
  | dele => exact (hE.withArg arg fun a _ _ => hE.removePath _ _ _).faults
  | pasv =>
    exact hE.cmdPasv arg fun port h => by_contra fun hno => not_overlong_msg227 (hip hno) port h

/-! ### Replies and their buffer -/

/-- The reply of the command fits the buffer of `send_msg`: the working directory, or the argument
with the size of the file, is not too long. -/
def Command.FitsBuffer (c : Command) (arg : Option Str) (env : Env) (s : Sys) : Prop :=
  match c with
  | .pwd => env.strdup = true → s.cwd.length ≤ 993
  | .retr => ∀ a ∈ arg, (retrStat env).1 = true → env.openFile.isSome = true →
      a.length + (decInt (retrStat env).2).length ≤ 967
  | .stor => ∀ a ∈ arg, env.openFile.isSome = true → a.length ≤ 976
  | .mkd => ∀ a ∈ arg, env.mkdir = true → a.length ≤ 1006
  | _ => True

section Lengths

lemma overlong_pwdText (cwd : Str) : Overlong (pwdText cwd) ↔ 993 < cwd.length := by
  have hhead : (lit "257 \"").length = 5 := by decide
  have htail : (lit "\" is current directory.").length = 23 := by decide
  have hcrlf : (lit "\r\n").length = 2 := by decide
  simp only [Overlong, pwdText, List.length_append, hhead, htail, hcrlf]
  omega

lemma overlong_mkdText (a : Str) : Overlong (mkdText a) ↔ 1006 < a.length := by
  have hhead : (lit "257 \"").length = 5 := by decide
  have htail : (lit "\" created.").length = 10 := by decide
  have hcrlf : (lit "\r\n").length = 2 := by decide
  simp only [Overlong, mkdText, List.length_append, hhead, htail, hcrlf]
  omega

lemma length_opening : (lit "150 Opening BINARY mode data connection for ").length = 44 := by decide

lemma overlong_storText (a : Str) : Overlong (storText a) ↔ 976 < a.length := by
  have htail : (lit ".").length = 1 := by decide
  have hcrlf : (lit "\r\n").length = 2 := by decide
  simp only [Overlong, storText, List.length_append, length_opening, htail, hcrlf]
  omega

lemma overlong_retrText (a : Str) (env : Env) :
    Overlong (retrText a env) ↔ 967 < a.length + (decInt (retrStat env).2).length := by
  have hopen : (lit " (").length = 2 := by decide
  have htail : (lit " bytes).").length = 8 := by decide
  have hcrlf : (lit "\r\n").length = 2 := by decide
  simp only [Overlong, retrText, List.length_append, length_opening, hopen, htail, hcrlf]
  omega

end Lengths

/-- The texts of the client's are short exactly if the reply fits. -/
lemma Command.fitsBuffer_iff (c : Command) (arg : Option Str) (env : Env) (s : Sys) :
    c.FitsBuffer arg env s ↔ ∀ text ∈ c.longText arg env s, ¬ Overlong text := by
  cases c with
  | pwd =>
    cases hdup : env.strdup with
    | false => simp [FitsBuffer, longText, hdup]
    | true => simp [FitsBuffer, longText, hdup, overlong_pwdText]
  | retr =>
    cases arg with
    | none => simp [FitsBuffer, longText]
    | some a =>
      by_cases hopen : (retrStat env).1 = true ∧ env.openFile.isSome = true
      · simp [FitsBuffer, longText, hopen.1, hopen.2, overlong_retrText]
      · simp [FitsBuffer, longText, hopen]
        tauto
  | stor =>
    cases arg with
    | none => simp [FitsBuffer, longText]
    | some a =>
      cases hopen : env.openFile.isSome with
      | false => simp [FitsBuffer, longText, hopen]
      | true => simp [FitsBuffer, longText, hopen, overlong_storText]
  | mkd =>
    cases arg with
    | none => simp [FitsBuffer, longText]
    | some a =>
      by_cases ha : a = []
      · simp [FitsBuffer, longText, ha]
      · cases hmkdir : env.mkdir with
        | false => simp [FitsBuffer, longText, hmkdir]
        | true => simp [FitsBuffer, longText, hmkdir, ha, overlong_mkdText]
  | _ => simp [FitsBuffer, longText]

/-- A reply that is too long overflows the buffer. -/
lemma sendMsg_overlong {Q : Unit → Sys → Prop} {s : Sys} (dr : Drain) {text : Str}
    (h : Overlong text) : wp (sendMsg dr text) Q (fun f => f = .overflow) s := by
  unfold sendMsg
  dsimp only
  rw [wp_ite]
  exact ⟨fun _ => rfl, fun hshort => absurd h hshort⟩

/-- A transfer that opens its file formats its reply first. -/
lemma openFile_overlong {Q : Unit → Sys → Prop} {s : Sys} {env : Env} (arg : Str) {text : Str}
    (state : FtpdState) (hopen : env.openFile.isSome = true) (h : Overlong text) :
    wp (do
        match ← vfsOpen arg env with
        | none => sendMsg env.msg₁ msg550
        | some (file, h) => startTransfer file h text state env)
      Q (fun f => f = .overflow) s := by
  rw [wp_bind, wp_vfsOpen]
  refine ⟨fun hnone => ?_, fun file _ => ?_⟩
  · rw [hnone] at hopen
    cases hopen
  · unfold startTransfer
    rw [wp_bind]
    exact sendMsg_overlong _ h

/-- A text of the client's that is too long overflows the buffer. -/
lemma Command.run_overlong {s : Sys} (c : Command) {arg : Option Str} {env : Env} {text : Str}
    (htext : text ∈ c.longText arg env s) (hlong : Overlong text) :
    wp (c.run arg env) (fun _ _ => False) (fun f => f = .overflow) s := by
  cases c with
  | pwd =>
    simp only [longText, Option.mem_def, Option.ite_none_right_eq_some, Option.some.injEq] at htext
    obtain ⟨hdup, rfl⟩ := htext
    simp only [run, cmdPwd]
    rw [if_pos hdup, wp_bind, wp_get]
    exact sendMsg_overlong _ hlong
  | retr =>
    simp only [longText, Option.mem_def, Option.ite_none_right_eq_some, Bool.and_eq_true,
      Option.map_eq_some_iff] at htext
    obtain ⟨⟨hreg, hopen⟩, a, rfl, rfl⟩ := htext
    simp only [run, cmdRetr, checkStr, pure_bind]
    rw [wp_bind, wp_note, hreg, Bool.not_true, if_neg Bool.false_ne_true]
    exact openFile_overlong a .retr hopen hlong
  | stor =>
    simp only [longText, Option.mem_def, Option.ite_none_right_eq_some,
      Option.map_eq_some_iff] at htext
    obtain ⟨hopen, a, rfl, rfl⟩ := htext
    exact openFile_overlong a .stor hopen hlong
  | mkd =>
    simp only [longText, Option.mem_def, Option.ite_none_right_eq_some, Option.map_eq_some_iff,
      Option.filter_eq_some_iff, decide_eq_true_eq] at htext
    obtain ⟨hmkdir, a, ⟨rfl, ha⟩, rfl⟩ := htext
    simp only [run, cmdMkd, withArg]
    rw [if_neg ha, wp_bind, wp_note, if_pos hmkdir]
    exact sendMsg_overlong _ hlong
  | _ => cases htext

/-- The faults of a callback with a packet are those of the command in it. -/
lemma wp_handle_executed {Q : Unit → Sys → Prop} {E : Fault → Prop} {s : Sys} {m : MsgState}
    (hm : s.fsm = some m) {e : Event} {c : Command} {arg : Option Str}
    (he : e.executed = some (c, arg)) : wp (handle e) Q E s ↔ wp (c.run arg e.env) Q E s := by
  obtain ⟨p, hcb, hmalloc, hp⟩ := Event.executed_eq_some he
  unfold handle
  rw [hcb]
  dsimp only
  rw [onControl, wp_bind, wp_get, hm]
  dsimp only
  rw [ftpdMsgrecv_eq p hmalloc, hp]

/-- **The faults of a callback with a packet**, as far as they come from the command line. -/
theorem handle_faults {E : Fault → Prop} (hE : Lenient E) {s : Sys} {m : MsgState}
    (hm : s.fsm = some m) (hip : ¬ E .overflow → s.localIp.length = 4) {e : Event}
    {p : Lwip.Chain} (hcb : e.callback = .msgrecv p)
    (hnull : ∀ c, e.executed = some (c, none) → c.NeedsArg → E .nullArg)
    (hlong : ∀ c arg, e.executed = some (c, arg) → ∀ text ∈ c.longText arg e.env s,
      Overlong text → E .overflow) :
    wp (handle e) (fun _ _ => True) E s := by
  cases he : e.executed with
  | some r =>
    obtain ⟨c, arg⟩ := r
    rw [wp_handle_executed hm he]
    refine c.run_faults hE hip (fun hneeds harg => hnull c (harg ▸ he) hneeds) (hlong c arg he)
  | none =>
    -- no command: reply 502, or nothing without memory for the text
    unfold handle
    rw [hcb]
    dsimp only
    rw [onControl, wp_bind, wp_get, hm]
    dsimp only
    by_cases hmalloc : e.env.mallocText = true
    · have hp : executed p = none := by
        rw [Event.executed, hcb] at he
        exact (if_pos hmalloc).symm.trans he
      rw [ftpdMsgrecv_eq p hmalloc, hp]
      exact (hE.sendFixed e.env.msg₁ (by simp [fixedReplies])).faults
    · rw [ftpdMsgrecv, if_neg hmalloc]
      trivial

lemma stops_eq_some_iff {e : Event} {s : Sys} {f : Fault} :
    stops e s = some f ↔ (handle e).run s = .error f := by
  refine ⟨stops_eq_some, fun h => ?_⟩
  rw [stops, h]

/-- **A reply fits its buffer exactly if what it quotes is short enough**: for `PWD` a working
directory of at most 993 bytes, for `STOR` an argument of at most 976, for `RETR` one of at most
967 with the digits of the size, and for `MKD` one of at most 1006.  Every other reply fits. -/
theorem reply_fits_iff {s : Sys} {m : MsgState} (hm : s.fsm = some m)
    (hip : s.localIp.length = 4) {e : Event} {p : Lwip.Chain} (hcb : e.callback = .msgrecv p) :
    stops e s ≠ some .overflow ↔
      ∀ c arg, e.executed = some (c, arg) → c.FitsBuffer arg e.env s := by
  rw [ne_eq, stops_eq_some_iff]
  constructor
  · intro hno c arg he
    rw [Command.fitsBuffer_iff]
    intro text htext hlong
    have hwp := (wp_handle_executed hm he).mpr (c.run_overlong htext hlong)
    obtain ⟨f, hrun, rfl⟩ := wp_fails hwp
    exact hno hrun
  · intro hfits hrun
    have hwp : wp (handle e) (fun _ _ => True) (fun f => f ≠ .overflow) s := by
      refine handle_faults (fun f _ h => h) hm (fun _ => hip) hcb (fun _ _ _ => by decide) ?_
      intro c arg he text htext hlong
      exact absurd hlong ((c.fitsBuffer_iff arg e.env s).mp (hfits c arg he) text htext)
    exact wp_error hwp hrun rfl

/-- `PWD` in a new session. -/
theorem reply_fits_pwd : stops (line "PWD\r\n") session ≠ some .overflow := by
  obtain ⟨m, hm⟩ := exists_fsm_session
  refine (reply_fits_iff hm (by decide +kernel) rfl).mpr ?_
  rintro c arg ⟨⟩ -
  decide +kernel

/-- A path of 977 bytes that the SD library can open: a file name behind separators. -/
theorem stor_reply_overflows :
    Accepted session ∧
    stops ⟨.msgrecv [lit "STOR " ++ List.replicate 976 slash ++ lit "a\r\n"], calm⟩ session =
      some .overflow := by
  exact ⟨accepted_session, by decide +kernel⟩

end Teensy41Ethernet.Ftpd
