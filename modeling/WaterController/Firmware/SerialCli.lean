import WaterController.Firmware.WifiFollows
import WaterController.Library.Ring
import WaterController.Library.Terminal
import WaterController.Library.Text
import WaterController.Nostd.Serial

/-!
# The console of the std firmware

The UART has no line discipline, so the console has its own.  It reads byte by byte, keeps a
line of printable characters, echoes them, rubs out behind a backspace, and runs the line at
its end.

* What the terminal shows is the line that would be run (`echo_in_step`).
* The lines that are run are those of the stream, however long they are (`lines_run`).
* `wifi add` and `wifi del` work on the list of networks as on a map, the last edit of a name
  being the one in force (`passwords_typed`).
* A name with white space in it, or with characters beyond ASCII, cannot be typed as a word.
  So a network of such a name is neither added nor removed, unless with all the others
  (`unspeakable_networks`).

What the other commands print is left open.
-/

namespace WaterController

open Machines (Machine Transition)
open Serial (isEnd isErase splitLines lines)

namespace SerialCli

/-! ## Commands -/

inductive CliCommand where
  | nothing
  | help
  | state
  | wifiList
  | wifiAdd (ssid password : String)
  | wifiDel (ssid : String)
  | wifiClear
  | wifiConnect
  | wifiScan
  | log (level : String)
  | tasks
  | mem
  | alarmStatus
  | alarmClear
  | webhookList
  | webhookFire (kind : String)
  | apInfo
  | https (on : Bool)
  | httpsState
  | reset
  | factoryReset
  | usage (text : String)
  | unknown (other : String)
deriving DecidableEq, Repr

/-- The words of a command. -/
def wordsOf (cmd : String) : List String := (Text.splitWhitespace cmd.toList).map String.ofList

def parseWifi : List String → CliCommand
  | "list" :: _ => .wifiList
  | "add" :: ssid :: rest => .wifiAdd ssid (rest.headD "")
  | ["add"] => .usage "usage: wifi add <ssid> [password]"
  | "del" :: ssid :: _ => .wifiDel ssid
  | ["del"] => .usage "usage: wifi del <ssid>"
  | "clear" :: _ => .wifiClear
  | "connect" :: _ => .wifiConnect
  | "scan" :: _ => .wifiScan
  | _ => .usage "usage: wifi <list|add|del|clear|connect|scan>"

def parseLog : List String → CliCommand
  | level :: _ => .log level
  | [] => .usage "usage: log <off|error|warn|info|debug|trace>"

def parseAlarm : List String → CliCommand
  | "status" :: _ => .alarmStatus
  | "clear" :: _ => .alarmClear
  | _ => .usage "usage: alarm <status|clear>"

def parseWebhook : List String → CliCommand
  | "list" :: _ => .webhookList
  | "fire" :: kind :: _ => .webhookFire kind
  | ["fire"] => .usage "usage: webhook fire <event_kind>"
  | _ => .usage "usage: webhook <list|fire <event_kind>>"

def parseHttps : List String → CliCommand
  | "on" :: _ => .https true
  | "off" :: _ => .https false
  | _ => .httpsState

def parse (cmd : String) : CliCommand :=
  match wordsOf cmd with
  | [] => .nothing
  | "help" :: _ => .help
  | "state" :: _ => .state
  | "wifi" :: args => parseWifi args
  | "log" :: args => parseLog args
  | "tasks" :: _ => .tasks
  | "mem" :: _ => .mem
  | "alarm" :: args => parseAlarm args
  | "webhook" :: args => parseWebhook args
  | "ap-info" :: _ => .apInfo
  | "https" :: args => parseHttps args
  | "reset" :: _ => .reset
  | "factory_reset" :: _ => .factoryReset
  | other :: _ => .unknown other

/-! ## Edits of the networks -/

inductive NetworkEdit where
  | add (ssid password : String)
  | del (ssid : String)
  | clear
deriving DecidableEq, Repr

namespace NetworkEdit

def apply : NetworkEdit → List WifiCreds → List WifiCreds
  | .add ssid password, nets => nets.filter (fun n => n.ssid != ssid) ++ [⟨ssid, password⟩]
  | .del ssid, nets => nets.filter fun n => n.ssid != ssid
  | .clear, _ => []

/-- What an edit leaves under a name, if it has to do with the name. -/
def leaves (ssid : String) : NetworkEdit → Option (List String)
  | .add name password => if name = ssid then some [password] else none
  | .del name => if name = ssid then some [] else none
  | .clear => some []

end NetworkEdit

/-- The passwords under a name. -/
def passwords (ssid : String) (nets : List WifiCreds) : List String :=
  (nets.filter fun n => n.ssid == ssid).map WifiCreds.password

/-- The entries of a name, where those of another were taken out. -/
theorem passwords_filter_ne (ssid name : String) (nets : List WifiCreds) :
    passwords ssid (nets.filter fun n => n.ssid != name) =
      if name = ssid then [] else passwords ssid nets := by
  rw [passwords, List.filter_filter]
  split
  · rename_i hsame
    rw [hsame]
    simp
  · rename_i hother
    refine congrArg (List.map WifiCreds.password) (List.filter_congr fun n _ => ?_)
    rcases eq_or_ne n.ssid ssid with heq | hne
    · have hname : n.ssid ≠ name := fun h => hother (h.symm.trans heq)
      simp [heq, heq ▸ hname]
    · simp [hne]

/-- One edit. -/
theorem passwords_apply (ssid : String) (edit : NetworkEdit) (nets : List WifiCreds) :
    passwords ssid (edit.apply nets) = (edit.leaves ssid).getD (passwords ssid nets) := by
  cases edit with
  | add name password =>
      have hlast : passwords ssid (nets.filter (fun n => n.ssid != name) ++ [⟨name, password⟩]) =
          passwords ssid (nets.filter fun n => n.ssid != name) ++
            passwords ssid [⟨name, password⟩] := by
        rw [passwords, List.filter_append, List.map_append]
        rfl
      rw [NetworkEdit.apply, hlast, passwords_filter_ne, NetworkEdit.leaves]
      split
      · rename_i hsame
        rw [hsame]
        simp [passwords]
      · rename_i hother
        simp [passwords, hother]
  | del name =>
      rw [NetworkEdit.apply, passwords_filter_ne, NetworkEdit.leaves]
      split <;> rfl
  | clear => rfl

/-- Behind any edits a name has what the last edit that had to do with it left, and what it had
before if there was none. -/
theorem passwords_edits (ssid : String) (edits : List NetworkEdit) (nets : List WifiCreds) :
    passwords ssid (edits.foldl (fun nets edit => edit.apply nets) nets) =
      (edits.filterMap (NetworkEdit.leaves ssid)).getLast?.getD (passwords ssid nets) := by
  induction edits using List.reverseRecOn with
  | nil => rfl
  | append_singleton edits edit ih =>
      rw [List.foldl_append, List.foldl_cons, List.foldl_nil, passwords_apply,
        Ring.getLast?_filterMap_concat, ih]
      cases edit.leaves ssid <;> rfl

/-! ## The console -/

def CliCommand.networkEdit? : CliCommand → Option NetworkEdit
  | .wifiAdd ssid password => some (.add ssid password)
  | .wifiDel ssid => some (.del ssid)
  | .wifiClear => some .clear
  | _ => none

section Console

variable (codecs : Codecs) (kinds : Serde EventKind)

/-- What a command does to the device.  The kind of an event is read as JSON. -/
def exec (env : Env) (fw : Firmware) (cmd : CliCommand) : Firmware :=
  match cmd with
  | .wifiAdd ssid password => fw.modifyNetworks codecs (NetworkEdit.add ssid password).apply env
  | .wifiDel ssid => fw.modifyNetworks codecs (NetworkEdit.del ssid).apply env
  | .wifiClear => fw.modifyNetworks codecs NetworkEdit.clear.apply env
  | .wifiConnect => { fw with wifi := fw.wifi.reconnect }
  | .alarmClear => fw.call codecs ⟨env, .clearFlowAlarm⟩
  | .webhookFire kind =>
      match kinds.fromSlice (asciiBytes ("\"" ++ kind ++ "\"")) with
      | .ok kind => fw.call codecs ⟨env, .emitEvent (WebhookEvent.new kind)⟩
      | .error _ => fw
  | .https on => fw.setHttps codecs on env
  | .factoryReset => fw.withNvs (Config.factoryReset env fw.nvs).1
  | .nothing | .help | .state | .wifiList | .wifiScan | .log _ | .tasks | .mem | .alarmStatus
  | .webhookList | .apInfo | .httpsState | .reset | .usage _ | .unknown _ => fw

/-- A command behind which the device restarts. -/
def restarts (env : Env) (fw : Firmware) : CliCommand → Bool
  | .reset => true
  | .factoryReset => (Config.factoryReset env fw.nvs).2.isOk
  | _ => false

/-- The console, with the row of the terminal. -/
structure Cli where
  fw : Firmware
  buf : List Char
  row : TerminalRow
  restarting : Bool

/-- A byte, with what a command that it ends meets and prints. -/
structure CliByte where
  byte : UInt8
  env : Env
  printed : List String

def isPrintable (b : UInt8) : Bool := 0x20 ≤ b && b ≤ 0x7e

def prompt : List Char := ['>', ' ']

/-- The characters of the lines that a command prints. -/
def printedText (lines : List String) : List Char :=
  lines.flatMap fun line => line.toList ++ ['\n']

namespace Cli

/-- The console behind its greeting. -/
def start (fw : Firmware) : Cli := ⟨fw, [], ⟨prompt, []⟩, false⟩

/-- Run the line that was begun.  A device that restarts prints no prompt. -/
def runLine (s : Cli) (rx : CliByte) : Cli :=
  let cmd := parse (Text.trim (String.ofList s.buf))
  let row := s.row.write (printedText rx.printed)
  { fw := exec codecs kinds rx.env s.fw cmd
    buf := []
    row := if restarts rx.env s.fw cmd then row else row.write prompt
    restarting := restarts rx.env s.fw cmd }

/-- The end of a line.  It gives the line, if one was begun. -/
def endLine (s : Cli) (rx : CliByte) : Cli × Option String :=
  let s := { s with row := s.row.put '\n' }
  if s.buf.isEmpty then ({ s with row := s.row.write prompt }, none)
  else (s.runLine codecs kinds rx, some (String.ofList s.buf))

/-- Any other byte. -/
def edit (s : Cli) (b : UInt8) : Cli :=
  if isErase b then
    if s.buf.isEmpty then s
    else { s with buf := s.buf.dropLast, row := s.row.write ['\x08', ' ', '\x08'] }
  else if isPrintable b then
    { s with buf := s.buf ++ [Char.ofUInt8 b], row := s.row.put (Char.ofUInt8 b) }
  else s

def byte (s : Cli) (rx : CliByte) : Cli × Option String :=
  if s.restarting then (s, none)
  else if isEnd rx.byte then s.endLine codecs kinds rx
  else (s.edit rx.byte, none)

end Cli

/-- The console, byte by byte.  It puts out the lines that it runs. -/
def cliMachine : Machine Cli CliByte (Option String) where
  step s rx := s.byte codecs kinds rx

end Console

/-! ## What the terminal shows -/

/-- The terminal shows the prompt and the line, until the device restarts. -/
def Cli.InStep (s : Cli) : Prop := s.restarting = true ∨ s.row.Shows (prompt ++ s.buf)

/-- A printable byte is a character of its own. -/
theorem toNat_ofUInt8 (b : UInt8) : (Char.ofUInt8 b).toNat = b.toNat :=
  UInt8.toNat_toUInt32 b

theorem char_of_isPrintable {b : UInt8} (h : isPrintable b = true) :
    0x20 ≤ (Char.ofUInt8 b).toNat ∧ (Char.ofUInt8 b).toNat ≤ 0x7e := by
  simp only [isPrintable, Bool.and_eq_true, decide_eq_true_eq, UInt8.le_iff_toNat_le] at h
  rw [toNat_ofUInt8]
  exact h

/-- Behind the prompt an empty row shows the prompt. -/
theorem shows_prompt : (TerminalRow.empty.write prompt).Shows (prompt ++ []) := by
  rw [List.append_nil]
  exact TerminalRow.shows_empty.write (by simp [prompt])

namespace Cli

variable {codecs : Codecs} {kinds : Serde EventKind}

/-- The commands print whole lines. -/
theorem inStep_runLine {s : Cli} (h : s.row = .empty) (rx : CliByte) :
    (s.runLine codecs kinds rx).InStep := by
  simp only [runLine, InStep]
  cases restarts rx.env s.fw (parse (Text.trim (String.ofList s.buf))) with
  | true => exact .inl rfl
  | false =>
      refine .inr ?_
      rw [if_neg Bool.false_ne_true, h, printedText, TerminalRow.write_lines]
      exact shows_prompt

theorem inStep_endLine (s : Cli) (rx : CliByte) : (s.endLine codecs kinds rx).1.InStep := by
  rw [endLine]
  split
  · rename_i hbuf
    refine .inr ?_
    rw [List.isEmpty_iff.mp hbuf]
    exact shows_prompt
  · exact inStep_runLine rfl rx

theorem InStep.edit {s : Cli} (h : s.InStep) (b : UInt8) : (s.edit b).InStep := by
  rw [Cli.edit]
  split
  · split
    · exact h
    · rename_i hne
      refine h.imp id fun hshows => ?_
      have hbuf : s.buf ≠ [] := fun hnil => hne (List.isEmpty_iff.mpr hnil)
      have hrub := hshows.rubOut (List.append_ne_nil_of_right_ne_nil prompt hbuf)
      rwa [List.dropLast_append_of_ne_nil hbuf] at hrub
  · split
    · rename_i hprint
      refine h.imp id fun hshows => ?_
      obtain ⟨hlow, -⟩ := char_of_isPrintable hprint
      have hput := hshows.put (c := Char.ofUInt8 b)
        (fun hc => absurd hlow (by rw [hc]; decide)) fun hc => absurd hlow (by rw [hc]; decide)
      rwa [List.append_assoc] at hput
    · exact h

/-- **Echo.**  After any bytes the row of the terminal is the prompt and the line that an end
of line would run.  The log writes to the same port, and no log line comes in between here. -/
theorem echo_in_step (codecs : Codecs) (kinds : Serde EventKind) (fw : Firmware)
    (bytes : List CliByte) : ((cliMachine codecs kinds).run (start fw) bytes).InStep := by
  refine (cliMachine codecs kinds).run_invariant (G := fun _ _ => True) ?_
    (.inr ⟨(List.append_nil prompt).symm, List.forall_mem_nil _⟩) fun _ _ => trivial
  intro s rx _ h
  show (s.byte codecs kinds rx).1.InStep
  rw [byte]
  split
  · exact h
  · split
    · exact inStep_endLine s rx
    · exact h.edit rx.byte

end Cli

/-! ## The lines that are run -/

/-- The text of a line: the printable characters that were not rubbed out. -/
def typed (line : List UInt8) : List Char :=
  line.foldl (fun cs b =>
    if isErase b then cs.dropLast else if isPrintable b then cs ++ [Char.ofUInt8 b] else cs) []

/-- The texts of some lines, but for the empty ones. -/
def texts (lines : List (List UInt8)) : List String :=
  ((lines.map typed).filter fun text => !text.isEmpty).map String.ofList

theorem typed_concat (line : List UInt8) (b : UInt8) :
    typed (line ++ [b]) =
      if isErase b then (typed line).dropLast
      else if isPrintable b then typed line ++ [Char.ofUInt8 b] else typed line := by
  rw [typed, List.foldl_append]
  rfl

theorem texts_cons (line : List UInt8) (rest : List (List UInt8)) :
    texts (line :: rest) =
      if (typed line).isEmpty then texts rest else String.ofList (typed line) :: texts rest := by
  rw [texts, List.map_cons, List.filter_cons]
  cases (typed line).isEmpty <;> rfl

namespace Cli

variable {codecs : Codecs} {kinds : Serde EventKind}

/-- A byte that ends no line. -/
theorem buf_edit {s : Cli} {begun : List UInt8} (h : s.buf = typed begun) (b : UInt8) :
    (s.edit b).buf = typed (begun ++ [b]) := by
  rw [edit, typed_concat, ← h]
  split
  · split
    · rename_i hbuf
      rw [List.isEmpty_iff.mp hbuf]
      rfl
    · rfl
  · split <;> rfl

theorem restarting_edit (s : Cli) (b : UInt8) : (s.edit b).restarting = s.restarting := by
  rw [edit]
  split
  · split <;> rfl
  · split <;> rfl

/-- A console whose device restarts reads nothing more. -/
theorem stopped {s : Cli} (h : s.restarting = true) (bytes : List CliByte) :
    (cliMachine codecs kinds).emitted s bytes = [] ∧
      ((cliMachine codecs kinds).run s bytes).restarting = true := by
  induction bytes with
  | nil => exact ⟨rfl, h⟩
  | cons rx bytes ih =>
      have hstep : (cliMachine codecs kinds).step s rx = (s, none) := if_pos h
      rw [Machine.emitted_cons, Machine.run_cons, Machine.out, Machine.next, hstep]
      exact ih

/-- The lines that are run begin those of the stream, and are all of them unless the device
restarts. -/
structure RunsLines (codecs : Codecs) (kinds : Serde EventKind) (s : Cli) (bytes : List CliByte)
    (begun : List UInt8) : Prop where
  begins : (cliMachine codecs kinds).emitted s bytes <+:
    texts (splitLines begun (bytes.map CliByte.byte))
  all : ((cliMachine codecs kinds).run s bytes).restarting = true ∨
    (cliMachine codecs kinds).emitted s bytes = texts (splitLines begun (bytes.map CliByte.byte))

theorem RunsLines.cons {s s' : Cli} {rx : CliByte} {bytes : List CliByte}
    {begun begun' : List UInt8} {line : Option String}
    (hstep : (cliMachine codecs kinds).step s rx = (s', line))
    (htexts : texts (splitLines begun ((rx :: bytes).map CliByte.byte)) =
      line.toList ++ texts (splitLines begun' (bytes.map CliByte.byte)))
    (h : RunsLines codecs kinds s' bytes begun') :
    RunsLines codecs kinds s (rx :: bytes) begun := by
  constructor
  · rw [Machine.emitted_cons, Machine.out, Machine.next, hstep, htexts]
    exact (List.prefix_append_right_inj _).mpr h.begins
  · rw [Machine.emitted_cons, Machine.run_cons, Machine.out, Machine.next, hstep, htexts]
    exact h.all.imp id (congrArg (line.toList ++ ·))

/-- The same from where a line has begun. -/
theorem runsLines {s : Cli} {begun : List UInt8} (hup : s.restarting = false)
    (hbuf : s.buf = typed begun) (bytes : List CliByte) :
    RunsLines codecs kinds s bytes begun := by
  induction bytes generalizing s begun with
  | nil => exact ⟨List.nil_prefix, .inr rfl⟩
  | cons rx bytes ih =>
      have hstep : (cliMachine codecs kinds).step s rx =
          if isEnd rx.byte then s.endLine codecs kinds rx else (s.edit rx.byte, none) := by
        show s.byte codecs kinds rx = _
        rw [byte, hup]
        rfl
      cases hend : isEnd rx.byte with
      | false =>
          rw [hend, if_neg Bool.false_ne_true] at hstep
          refine .cons hstep ?_ (ih ((restarting_edit s rx.byte).trans hup) (buf_edit hbuf rx.byte))
          rw [List.map_cons, splitLines, hend]
          rfl
      | true =>
          rw [hend, if_pos rfl, endLine] at hstep
          have htexts : texts (splitLines begun ((rx :: bytes).map CliByte.byte)) =
              if s.buf.isEmpty then texts (splitLines [] (bytes.map CliByte.byte))
              else String.ofList s.buf :: texts (splitLines [] (bytes.map CliByte.byte)) := by
            rw [List.map_cons, splitLines, hend, if_pos rfl, texts_cons, ← hbuf]
          split at hstep
          · rename_i hempty
            rw [if_pos hempty] at htexts
            exact .cons hstep htexts (ih hup (List.isEmpty_iff.mp hempty))
          · rename_i hfull
            rw [if_neg hfull] at htexts
            refine .cons hstep htexts ?_
            cases hdown : (runLine codecs kinds { s with row := s.row.put '\n' } rx).restarting with
            | false => exact ih hdown rfl
            | true =>
                obtain ⟨hnone, hstays⟩ := @stopped codecs kinds _ hdown bytes
                exact ⟨by rw [hnone]; exact List.nil_prefix, .inl hstays⟩

/-- **Lines.**  The lines that are run are those of the stream that have a text, in their
order and however long, up to one that restarts the device. -/
theorem lines_run (codecs : Codecs) (kinds : Serde EventKind) (fw : Firmware)
    (bytes : List CliByte) : RunsLines codecs kinds (start fw) bytes [] :=
  runsLines rfl rfl bytes

end Cli

/-! ## The edits of a session -/

section Edits

variable (codecs : Codecs) (kinds : Serde EventKind)

/-- The edit is saved. -/
def saves (env : Env) (fw : Firmware) (edit : NetworkEdit) : Bool :=
  ({ fw.app.config with wifi.networks := edit.apply fw.app.config.wifi.networks }.save
    codecs.config env fw.nvs).2.isOk

/-- The edit of a command, if it has one and that is saved. -/
def savedEdit (env : Env) (fw : Firmware) (cmd : CliCommand) : Option NetworkEdit :=
  cmd.networkEdit?.filter (saves codecs env fw)

theorem networks_modifyNetworks (edit : NetworkEdit) (env : Env) (fw : Firmware) :
    (fw.modifyNetworks codecs edit.apply env).networks =
      ((some edit).filter (saves codecs env fw)).elim fw.networks
        fun edit => edit.apply fw.networks := by
  rw [Firmware.modifyNetworks, Firmware.editConfig, Option.filter_some]
  simp only
  split
  · rename_i e hsave
    have hsaves : saves codecs env fw edit = false := congrArg Except.isOk hsave
    rw [hsaves]
    rfl
  · rename_i hsave
    have hsaves : saves codecs env fw edit = true := congrArg Except.isOk hsave
    rw [hsaves]
    rfl

theorem networks_setHttps (on : Bool) (env : Env) (fw : Firmware) :
    (fw.setHttps codecs on env).networks = fw.networks := by
  rw [Firmware.setHttps, Firmware.editConfig]
  simp only
  split <;> rfl

theorem networks_call (fw : Firmware) {c : Call} (h : c.op.installs = false) :
    (fw.call codecs c).networks = fw.networks :=
  congrArg (fun cfg : Config => cfg.wifi.networks) (App.next_config _ fw.app h)

/-- A command does its edit to the networks, if it has one that is saved. -/
theorem networks_exec (env : Env) (fw : Firmware) (cmd : CliCommand) :
    (exec codecs kinds env fw cmd).networks =
      (savedEdit codecs env fw cmd).elim fw.networks fun edit => edit.apply fw.networks := by
  cases cmd with
  | wifiAdd ssid password => exact networks_modifyNetworks codecs (.add ssid password) env fw
  | wifiDel ssid => exact networks_modifyNetworks codecs (.del ssid) env fw
  | wifiClear => exact networks_modifyNetworks codecs .clear env fw
  | alarmClear => exact networks_call codecs fw rfl
  | webhookFire kind =>
      rw [exec]
      split
      · exact networks_call codecs fw rfl
      · rfl
  | https on => exact networks_setHttps codecs on env fw
  | nothing | help | state | wifiList | wifiConnect | wifiScan | log | tasks | mem | alarmStatus
  | webhookList | apInfo | httpsState | reset | factoryReset | usage | unknown => rfl

/-- The edit that a byte brings about. -/
def editOf (t : Transition Cli CliByte (Option String)) : Option NetworkEdit :=
  t.output.bind fun line => savedEdit codecs t.input.env t.before.fw (parse (Text.trim line))

theorem editOf_of_output {t : Transition Cli CliByte (Option String)} {line : String}
    (h : t.output = some line) :
    editOf codecs t = savedEdit codecs t.input.env t.before.fw (parse (Text.trim line)) := by
  rw [editOf, h, Option.bind_some]

theorem networks_runLine (s : Cli) (rx : CliByte) :
    (s.runLine codecs kinds rx).fw.networks =
      (savedEdit codecs rx.env s.fw (parse (Text.trim (String.ofList s.buf)))).elim s.fw.networks
        fun edit => edit.apply s.fw.networks := by
  rw [Cli.runLine]
  generalize parse (Text.trim (String.ofList s.buf)) = cmd
  exact networks_exec codecs kinds rx.env s.fw cmd

theorem fw_edit (s : Cli) (b : UInt8) : (s.edit b).fw = s.fw := by
  rw [Cli.edit]
  split
  · split <;> rfl
  · split <;> rfl

/-- One byte. -/
theorem networks_next (s : Cli) (rx : CliByte) :
    ((cliMachine codecs kinds).next s rx).fw.networks =
      (editOf codecs ((cliMachine codecs kinds).transition s rx)).elim s.fw.networks
        fun edit => edit.apply s.fw.networks := by
  have hquiet {s' : Cli} (hstep : (cliMachine codecs kinds).step s rx = (s', none))
      (hfw : s'.fw = s.fw) :
      ((cliMachine codecs kinds).next s rx).fw.networks =
        (editOf codecs ((cliMachine codecs kinds).transition s rx)).elim s.fw.networks
          fun edit => edit.apply s.fw.networks := by
    rw [editOf, Machine.transition, Machine.next, Machine.out, hstep]
    exact congrArg Firmware.networks hfw
  have hstep : (cliMachine codecs kinds).step s rx = s.byte codecs kinds rx := rfl
  rw [Cli.byte] at hstep
  split at hstep
  · exact hquiet hstep rfl
  · split at hstep
    · rw [Cli.endLine] at hstep
      split at hstep
      · exact hquiet hstep rfl
      · have hnext : (cliMachine codecs kinds).next s rx =
            Cli.runLine codecs kinds { s with row := s.row.put '\n' } rx := by
          rw [Machine.next, hstep]
        have hout : ((cliMachine codecs kinds).transition s rx).output =
            some (String.ofList s.buf) := by
          rw [Machine.transition, Machine.out, hstep]
        rw [editOf_of_output codecs hout, Machine.transition_input, Machine.transition_before,
          hnext]
        exact networks_runLine codecs kinds { s with row := s.row.put '\n' } rx
    · exact hquiet hstep (fw_edit s rx.byte)

/-- The networks are edited as the commands say. -/
theorem networks_run (s : Cli) (bytes : List CliByte) :
    ((cliMachine codecs kinds).run s bytes).fw.networks =
      (((cliMachine codecs kinds).trace s bytes).filterMap (editOf codecs)).foldl
        (fun nets edit => edit.apply nets) s.fw.networks := by
  induction bytes generalizing s with
  | nil => rfl
  | cons rx bytes ih =>
      rw [Machine.run_cons, ih, Machine.trace_cons, List.filterMap_cons, networks_next]
      cases editOf codecs ((cliMachine codecs kinds).transition s rx) <;> rfl

/-- **Edits.**  Whatever is typed, a name has the passwords that the last edit that had to do with
it left, of those whose line was run and that were saved, and what it had before if there was
none. -/
theorem passwords_typed (ssid : String) (fw : Firmware) (bytes : List CliByte) :
    passwords ssid ((cliMachine codecs kinds).run (.start fw) bytes).fw.networks =
      ((((cliMachine codecs kinds).trace (.start fw) bytes).filterMap (editOf codecs)).filterMap
        (NetworkEdit.leaves ssid)).getLast?.getD (passwords ssid fw.networks) := by
  rw [networks_run, passwords_edits]
  rfl

end Edits

/-! ## What a session leaves of the networks -/

/-- A word of ASCII characters that can be seen. -/
def Speakable (s : String) : Prop := s ≠ "" ∧ ∀ c ∈ s.toList, 0x20 < c.toNat ∧ c.toNat ≤ 0x7e

instance (s : String) : Decidable (Speakable s) :=
  inferInstanceAs (Decidable (s ≠ "" ∧ ∀ c ∈ s.toList, 0x20 < c.toNat ∧ c.toNat ≤ 0x7e))

/-- The networks whose name cannot be typed. -/
def unspeakable (nets : List WifiCreds) : List WifiCreds :=
  nets.filter fun n => ¬ Speakable n.ssid

/-- A network that can be typed, with a password or without. -/
def Typeable (n : WifiCreds) : Prop := Speakable n.ssid ∧ (n.password = "" ∨ Speakable n.password)

/-- The texts of an edit have a property. -/
def NetworkEdit.Of (P : String → Prop) : NetworkEdit → Prop
  | .add ssid password => P ssid ∧ (password = "" ∨ P password)
  | .del ssid => P ssid
  | .clear => True

theorem NetworkEdit.Of.imp {P Q : String → Prop} (hPQ : ∀ s, P s → Q s) {edit : NetworkEdit}
    (h : edit.Of P) : edit.Of Q := by
  cases edit with
  | add ssid password => exact ⟨hPQ _ h.1, h.2.imp id (hPQ _)⟩
  | del ssid => exact hPQ _ h
  | clear => trivial

/-- The texts of an edit are words of the command. -/
theorem of_parseWifi {args : List String} {edit : NetworkEdit}
    (h : edit ∈ (parseWifi args).networkEdit?) : edit.Of (· ∈ args) := by
  unfold parseWifi at h
  split at h
  case h_2 ssid rest =>
    cases h
    refine ⟨by simp, ?_⟩
    cases rest with
    | nil => exact .inl rfl
    | cons password rest => exact .inr (by simp)
  case h_4 ssid rest =>
    cases h
    show ssid ∈ "del" :: ssid :: rest
    simp
  case h_6 =>
    cases h
    trivial
  all_goals cases h

theorem of_parse {cmd : String} {edit : NetworkEdit} (h : edit ∈ (parse cmd).networkEdit?) :
    edit.Of (· ∈ wordsOf cmd) := by
  unfold parse at h
  split at h
  case h_4 args hwords =>
    rw [hwords]
    exact (of_parseWifi h).imp fun _ => List.mem_cons_of_mem _
  case h_5 args hwords => cases args <;> cases h
  case h_8 args hwords =>
    unfold parseAlarm at h
    split at h <;> cases h
  case h_9 args hwords =>
    unfold parseWebhook at h
    split at h <;> cases h
  case h_11 args hwords =>
    unfold parseHttps at h
    split at h <;> cases h
  all_goals cases h

/-- The words of a line of printable characters can be seen. -/
theorem speakable_of_mem_wordsOf {text : List Char}
    (htext : ∀ c ∈ text, 0x20 ≤ c.toNat ∧ c.toNat ≤ 0x7e) {word : String}
    (h : word ∈ wordsOf (Text.trim (String.ofList text))) : Speakable word := by
  obtain ⟨chars, hchars, rfl⟩ := List.mem_map.mp h
  obtain ⟨hne, hmem⟩ := Text.of_mem_splitWhitespace hchars
  refine ⟨fun hnil => hne (by simpa using congrArg String.toList hnil), fun c hc => ?_⟩
  rw [String.toList_ofList] at hc
  obtain ⟨htrim, hspace⟩ := hmem c hc
  have hin := Text.toList_trim_subset _ htrim
  rw [String.toList_ofList] at hin
  obtain ⟨hlow, hhigh⟩ := htext c hin
  refine ⟨Nat.lt_of_le_of_ne hlow fun hblank => ?_, hhigh⟩
  -- the blank is white space
  simp [Text.isWhitespace, ← hblank] at hspace

/-- What edits of words can make of a list of networks. -/
structure Edited (before after : List WifiCreds) : Prop where
  unspeakable : unspeakable after = unspeakable before ∨ unspeakable after = []
  typeable : ∀ n ∈ after, n ∈ before ∨ Typeable n

theorem Edited.refl (nets : List WifiCreds) : Edited nets nets :=
  ⟨.inl rfl, fun _ => .inl⟩

/-- Taking out a name that can be typed leaves those that cannot. -/
theorem unspeakable_filter_ne {ssid : String} (h : Speakable ssid) (nets : List WifiCreds) :
    unspeakable (nets.filter fun n => n.ssid != ssid) = unspeakable nets := by
  rw [unspeakable, List.filter_filter]
  refine List.filter_congr fun n _ => ?_
  rcases eq_or_ne n.ssid ssid with heq | hne
  · simp [heq, h]
  · simp [hne]

theorem Edited.apply {before after : List WifiCreds} (h : Edited before after)
    {edit : NetworkEdit} (hwords : edit.Of Speakable) : Edited before (edit.apply after) := by
  cases edit with
  | add ssid password =>
      constructor
      · have hkeep : SerialCli.unspeakable ((NetworkEdit.add ssid password).apply after) =
            SerialCli.unspeakable after := by
          rw [NetworkEdit.apply, SerialCli.unspeakable, List.filter_append]
          refine (congrArg₂ (· ++ ·) (unspeakable_filter_ne hwords.1 after) ?_).trans
            (List.append_nil _)
          simp [hwords.1]
        rw [hkeep]
        exact h.unspeakable
      · intro n hn
        rcases List.mem_append.mp hn with hold | hnew
        · exact h.typeable n (List.mem_of_mem_filter hold)
        · rw [List.mem_singleton.mp hnew]
          exact .inr hwords
  | del ssid =>
      constructor
      · rw [NetworkEdit.apply, unspeakable_filter_ne hwords]
        exact h.unspeakable
      · exact fun n hn => h.typeable n (List.mem_of_mem_filter hn)
  | clear => exact ⟨.inr rfl, List.forall_mem_nil _⟩

section Device

/-- What is kept from byte to byte: the line has printable characters. -/
structure Kept (nets : List WifiCreds) (s : Cli) : Prop where
  printable : ∀ c ∈ s.buf, 0x20 ≤ c.toNat ∧ c.toNat ≤ 0x7e
  edited : Edited nets s.fw.networks

variable {codecs : Codecs} {kinds : Serde EventKind}

theorem Kept.edit {nets : List WifiCreds} {s : Cli} (h : Kept nets s) (b : UInt8) :
    Kept nets (s.edit b) := by
  rw [Cli.edit]
  split
  · split
    · exact h
    · exact ⟨fun c hc => h.printable c (List.mem_of_mem_dropLast hc), h.edited⟩
  · split
    · rename_i hprint
      refine ⟨fun c hc => ?_, h.edited⟩
      rcases List.mem_append.mp hc with hold | hnew
      · exact h.printable c hold
      · rw [List.mem_singleton.mp hnew]
        exact char_of_isPrintable hprint
    · exact h

/-- A command whose edit has visible words. -/
theorem Edited.exec {nets : List WifiCreds} {fw : Firmware} (h : Edited nets fw.networks)
    (env : Env) {cmd : CliCommand} (hwords : ∀ edit ∈ cmd.networkEdit?, edit.Of Speakable) :
    Edited nets (exec codecs kinds env fw cmd).networks := by
  rw [networks_exec]
  cases hsaved : savedEdit codecs env fw cmd with
  | none => exact h
  | some edit => exact h.apply (hwords edit (Option.mem_filter_iff.mp hsaved).1)

/-- The edit of a line of printable characters has visible words. -/
theorem edit_speakable {text : List Char}
    (htext : ∀ c ∈ text, 0x20 ≤ c.toNat ∧ c.toNat ≤ 0x7e) {edit : NetworkEdit}
    (h : edit ∈ (parse (Text.trim (String.ofList text))).networkEdit?) : edit.Of Speakable :=
  (of_parse h).imp fun _ => speakable_of_mem_wordsOf htext

theorem Kept.runLine {nets : List WifiCreds} {s : Cli} (h : Kept nets s) (rx : CliByte) :
    Kept nets (s.runLine codecs kinds rx) := by
  have hwords : ∀ edit ∈ (parse (Text.trim (String.ofList s.buf))).networkEdit?,
      edit.Of Speakable := fun _ hedit => edit_speakable h.printable hedit
  rw [Cli.runLine]
  generalize parse (Text.trim (String.ofList s.buf)) = cmd at hwords ⊢
  exact ⟨List.forall_mem_nil _, h.edited.exec rx.env hwords⟩

theorem Kept.byte {nets : List WifiCreds} {s : Cli} (h : Kept nets s) (rx : CliByte) :
    Kept nets (s.byte codecs kinds rx).1 := by
  rw [Cli.byte]
  split
  · exact h
  · split
    · rw [Cli.endLine]
      split
      · exact ⟨h.printable, h.edited⟩
      · exact Kept.runLine (s := { s with row := s.row.put '\n' }) ⟨h.printable, h.edited⟩ rx
    · exact h.edit rx.byte

end Device

/-- **Networks.**  Whatever is typed, a network whose name is no word of visible ASCII
characters stays where it is, unless all of them go.  And what is new can be typed. -/
theorem unspeakable_networks (codecs : Codecs) (kinds : Serde EventKind) (fw : Firmware)
    (bytes : List CliByte) :
    Edited fw.networks ((cliMachine codecs kinds).run (.start fw) bytes).fw.networks :=
  ((cliMachine codecs kinds).run_invariant (P := Kept fw.networks) (G := fun _ _ => True)
    (fun _ rx _ h => h.byte rx) ⟨List.forall_mem_nil _, .refl _⟩ fun _ _ => trivial).edited

end SerialCli

end WaterController
