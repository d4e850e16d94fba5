import WaterController.Library.BoundedText
import WaterController.Library.Text
import WaterController.Nostd.Connection
import WaterController.Nostd.Device

/-!
# The serial console

The console reads bytes from the UART, edits one line in a buffer of 80 bytes, and runs it
at its end.  A byte that does not fit empties the buffer.

The line goes on behind that, so what comes last of a line that was too long is run as if
it were a line.  The lines that are run are those of the stream just if no line outgrows the
buffer (`lines_run_iff`).
-/

namespace WaterController

open Machines (Machine Transition)

open Text (trim)

namespace Serial

/-! ## Commands -/

/-- What is said about the radio. -/
def wifiReply : Option WifiState → String
  | some (.connected ssid ip) => "serial: wifi connected " ++ ssid ++ " ip=" ++ ip
  | some (.apMode ssid ip) => "serial: wifi AP-mode " ++ ssid ++ " ip=" ++ ip
  | some (.connecting ssid) => "serial: wifi connecting to " ++ ssid
  | _ => "serial: wifi disconnected"

/-- `{:?}` of the state of the water control. -/
def debugWater : WaterControlState → String
  | .off => "Off"
  | .on => "On"
  | .transitioning => "Transitioning"

def statusReply (snap : DeviceSnapshot) (env : WebEnv) : List String :=
  ["serial: uptime=" ++ toString env.uptimeSecs ++ "s fw=" ++ snap.firmwareVersion ++ " mqtt=" ++
      toString snap.network.mqttConnected,
    wifiReply snap.network.wifi,
    "serial: switches s1=" ++ toString snap.switches.sprinkler1 ++ " s2=" ++
      toString snap.switches.sprinkler2 ++ " water=" ++ debugWater snap.switches.waterControl]

/-- Run a line, and say what is logged. -/
def handle (st : AppState) (env : WebEnv) (line : String) : AppState × List String :=
  match trim line with
  | "" => (st, [])
  | "help" =>
      (st, ["serial: commands — help | status | diag | reset | config reset | ap | alarm clear"])
  | "status" => (st, statusReply st.app.state env)
  | "diag" =>
      (st, ["serial: heap_free=" ++ toString env.heapFree ++ " heap_used=" ++
        toString env.heapUsed])
  | "reset" => ({ st with rebootRequested := true }, ["serial: resetting…"])
  | "config reset" =>
      let (result, kv) := Config.factoryResetIn st.flashKv env.flash
      (st.withKv kv,
        [match result with
        | .ok _ => "serial: config erased — run 'reset' to boot defaults"
        | .error e => "serial: config reset failed: " ++ e.debug])
  | "ap" =>
      ({ st.withKv (writeBootMode st.flashKv .ap env.flash).2 with rebootRequested := true },
        ["serial: AP setup mode set — rebooting"])
  | "alarm clear" =>
      ({ st with app := st.app.clearFlowAlarm env.env }, ["serial: flow alarm cleared"])
  | other => (st, ["serial: unknown command '" ++ other ++ "' (try 'help')"])

/-! ## The line discipline -/

/-- The bytes that end a line. -/
def isEnd (b : UInt8) : Bool := b == 13 || b == 10

/-- The bytes that take a character back. -/
def isErase (b : UInt8) : Bool := b == 0x08 || b == 0x7f

/-- The console with its buffer. -/
structure Console where
  line : BoundedText 80
  device : AppState

/-- A byte, and what a command that it ends reads from the platform. -/
structure RxByte where
  byte : UInt8
  env : WebEnv

/-- What the line is edited to. -/
def edit (line : BoundedText 80) (b : UInt8) : BoundedText 80 :=
  if isErase b then line.pop
  -- overflow: drop the oversized line
  else (line.push? (Char.ofUInt8 b)).getD .empty

/-- One byte, with the line that is run at it. -/
def Console.byte (s : Console) (rx : RxByte) : Console × Option String :=
  if isEnd rx.byte then
    (⟨.empty, (handle s.device rx.env s.line.toString).1⟩, some s.line.toString)
  else (⟨edit s.line rx.byte, s.device⟩, none)

/-- The bytes of one read, with the lines that are run. -/
def Console.bytes (s : Console) : List RxByte → Console × List String
  | [] => (s, [])
  | rx :: rest =>
      let (s, run) := s.byte rx
      let (s, runs) := s.bytes rest
      (s, run.toList ++ runs)

/-- The task, read by read.  A read that fails is skipped. -/
def task : Machine Console (Except String (List RxByte)) (List String) where
  step s
    | .ok read => s.bytes read
    | .error _ => (s, [])

/-- The lines that are run at some bytes, which the device has no part in. -/
def linesOf (line : BoundedText 80) : List UInt8 → List String
  | [] => []
  | b :: bs =>
      if isEnd b then line.toString :: linesOf .empty bs else linesOf (edit line b) bs

/-- The bytes that were received, however they were split. -/
def stream (reads : List (Except String (List RxByte))) : List UInt8 :=
  reads.flatMap fun read => (read.toOption.getD []).map RxByte.byte

/-- The lines that were run. -/
def linesRun (device : AppState) (reads : List (Except String (List RxByte))) : List String :=
  (task.trace ⟨.empty, device⟩ reads).flatMap Transition.output

/-! ## The lines of a stream -/

/-- The lines that are ended, where one has begun. -/
def splitLines (begun : List UInt8) : List UInt8 → List (List UInt8)
  | [] => []
  | b :: bs => if isEnd b then begun :: splitLines [] bs else splitLines (begun ++ [b]) bs

/-- The lines of a stream. -/
def lines (bs : List UInt8) : List (List UInt8) := splitLines [] bs

/-- The text of a line, where a byte can take back the character before it. -/
def textOf (line : List UInt8) : List Char :=
  line.foldl (fun cs b => if isErase b then cs.dropLast else cs ++ [Char.ofUInt8 b]) []

/-- At some point the text of a line is larger than the buffer. -/
def Oversized (line : List UInt8) : Prop := ∃ part ∈ line.inits, 80 < textSize (textOf part)

instance (line : List UInt8) : Decidable (Oversized line) :=
  inferInstanceAs (Decidable (∃ part ∈ line.inits, 80 < textSize (textOf part)))

/-- The lines that are run are those of the stream, without the oversized ones, and of an
oversized line nothing is run. -/
structure DiscardsOversized (device : AppState) (reads : List (Except String (List RxByte))) :
    Prop where
  run : linesRun device reads =
    ((lines (stream reads)).filter fun line => ¬ Oversized line).map fun line =>
      String.ofList (textOf line)
  nothing : ∀ pre line b post, stream reads = pre ++ line ++ b :: post →
    (∀ c ∈ pre.getLast?, isEnd c = true) → (∀ c ∈ line, isEnd c = false) → isEnd b = true →
    Oversized line → (linesOf .empty (pre ++ line ++ [b])) = linesOf .empty pre

/-! ## The device has no part in the lines -/

/-- The buffer behind some bytes. -/
def lineAfter (line : BoundedText 80) (bs : List UInt8) : BoundedText 80 :=
  bs.foldl (fun line b => if isEnd b then .empty else edit line b) line

theorem linesOf_append (line : BoundedText 80) (as bs : List UInt8) :
    linesOf line (as ++ bs) = linesOf line as ++ linesOf (lineAfter line as) bs := by
  induction as generalizing line with
  | nil => rfl
  | cons a as ih =>
      rw [List.cons_append, linesOf, linesOf, lineAfter, List.foldl_cons]
      split
      · rw [ih, List.cons_append]
        rfl
      · exact ih (edit line a)

theorem bytes_eq (s : Console) (read : List RxByte) :
    (s.bytes read).2 = linesOf s.line (read.map RxByte.byte) ∧
      (s.bytes read).1.line = lineAfter s.line (read.map RxByte.byte) := by
  induction read generalizing s with
  | nil => exact ⟨rfl, rfl⟩
  | cons rx read ih =>
      rw [List.map_cons, linesOf, lineAfter, List.foldl_cons, Console.bytes, Console.byte]
      cases isEnd rx.byte with
      | true =>
          obtain ⟨hruns, hline⟩ := ih ⟨.empty, (handle s.device rx.env s.line.toString).1⟩
          exact ⟨congrArg (s.line.toString :: ·) hruns, hline⟩
      | false => exact ih ⟨edit s.line rx.byte, s.device⟩

theorem linesRun_eq (device : AppState) (reads : List (Except String (List RxByte))) :
    linesRun device reads = linesOf .empty (stream reads) := by
  rw [linesRun, stream]
  suffices h : ∀ s : Console, (task.trace s reads).flatMap Transition.output =
      linesOf s.line (reads.flatMap fun read => (read.toOption.getD []).map RxByte.byte) from
    h ⟨.empty, device⟩
  induction reads with
  | nil => exact fun _ => rfl
  | cons read reads ih =>
      intro s
      rw [Machine.trace_cons, List.flatMap_cons, List.flatMap_cons, ih, linesOf_append]
      cases read with
      | error e => rfl
      | ok read =>
          obtain ⟨hruns, hline⟩ := bytes_eq s read
          exact congrArg₂ (· ++ linesOf · _) hruns hline

/-! ## Lines that fit -/

theorem textOf_concat (line : List UInt8) (b : UInt8) :
    textOf (line ++ [b]) =
      if isErase b then (textOf line).dropLast else textOf line ++ [Char.ofUInt8 b] := by
  rw [textOf, List.foldl_append]
  rfl

theorem Oversized.of_prefix {part line : List UInt8} (h : Oversized part) (hpart : part <+: line) :
    Oversized line := by
  obtain ⟨small, hmem, hsize⟩ := h
  exact ⟨small, (List.mem_inits _ _).mpr (((List.mem_inits _ _).mp hmem).trans hpart), hsize⟩

theorem size_of_not_oversized {line : List UInt8} (h : ¬ Oversized line) :
    textSize (textOf line) ≤ 80 :=
  Nat.le_of_not_lt fun hlt => h ⟨line, (List.mem_inits _ _).mpr (List.prefix_refl line), hlt⟩

/-- A buffer that holds the text of a line holds the text of the longer line, if that
fits. -/
theorem edit_chars {line : BoundedText 80} {begun : List UInt8} {b : UInt8}
    (hline : line.chars = textOf begun) (hfits : ¬ Oversized (begun ++ [b])) :
    (edit line b).chars = textOf (begun ++ [b]) := by
  have hsize := size_of_not_oversized hfits
  rw [textOf_concat] at hsize ⊢
  rw [edit]
  split_ifs at hsize ⊢ with herase
  · rw [BoundedText.chars_pop, hline]
  · rw [← hline] at hsize
    rw [BoundedText.push?_of_fits hsize, Option.getD_some]
    exact congrArg (· ++ [Char.ofUInt8 b]) hline

/-- Where no line is oversized, the lines that are run are those of the stream. -/
theorem linesOf_eq {line : BoundedText 80} {begun bs : List UInt8}
    (hline : ¬ Oversized begun → line.chars = textOf begun)
    (hfits : ∀ l ∈ splitLines begun bs, ¬ Oversized l) :
    linesOf line bs = (splitLines begun bs).map fun l => String.ofList (textOf l) := by
  induction bs generalizing line begun with
  | nil => rfl
  | cons b bs ih =>
      rw [linesOf]
      rw [splitLines] at hfits ⊢
      split_ifs at hfits ⊢ with hend
      · obtain ⟨hbegun, hrest⟩ := List.forall_mem_cons.mp hfits
        rw [List.map_cons, ih (fun _ => rfl) hrest, BoundedText.toString, hline hbegun]
      · refine ih (fun hnot => edit_chars (hline fun hover => ?_) hnot) hfits
        exact hnot (hover.of_prefix (List.prefix_append begun [b]))

/-- A line is run for each line of the stream. -/
theorem length_linesOf (line : BoundedText 80) (begun bs : List UInt8) :
    (linesOf line bs).length = (splitLines begun bs).length := by
  induction bs generalizing line begun with
  | nil => rfl
  | cons b bs ih =>
      rw [linesOf, splitLines]
      split
      · rw [List.length_cons, List.length_cons, ih]
      · exact ih _ _

/-! ## Lines in a stream -/

theorem splitLines_append {line : List UInt8} (hline : ∀ c ∈ line, isEnd c = false)
    (begun bs : List UInt8) : splitLines begun (line ++ bs) = splitLines (begun ++ line) bs := by
  induction line generalizing begun with
  | nil => rw [List.append_nil]; rfl
  | cons c line ih =>
      obtain ⟨hc, hrest⟩ := List.forall_mem_cons.mp hline
      rw [List.cons_append, splitLines, if_neg (by rw [hc]; decide), ih hrest, List.append_assoc]
      rfl

/-- The lines behind the end of a line are lines of the stream. -/
theorem mem_splitLines {pre rest line : List UInt8} (hpre : ∀ c ∈ pre.getLast?, isEnd c = true)
    (hmem : line ∈ lines rest) {begun : List UInt8} (hbegun : pre = [] → begun = []) :
    line ∈ splitLines begun (pre ++ rest) := by
  induction pre generalizing begun with
  | nil =>
      rw [hbegun rfl]
      exact hmem
  | cons c pre ih =>
      rw [List.cons_append, splitLines]
      rcases eq_or_ne pre [] with rfl | hne
      · rw [if_pos (hpre c rfl)]
        exact List.mem_cons_of_mem _ hmem
      · have hlast : ∀ c ∈ pre.getLast?, isEnd c = true := fun d hd =>
          hpre d (by rw [List.getLast?_cons_of_ne_nil hne]; exact hd)
        split
        · exact List.mem_cons_of_mem _ (ih hlast fun _ => rfl)
        · exact ih hlast fun hnil => absurd hnil hne

/-- **Lines.**  The lines that are run are those of the stream without the oversized ones just
if none is oversized. -/
theorem lines_run_iff (device : AppState) (reads : List (Except String (List RxByte))) :
    DiscardsOversized device reads ↔ ∀ line ∈ lines (stream reads), ¬ Oversized line := by
  constructor
  · intro hdiscards
    have hlength := congrArg List.length hdiscards.run
    rw [linesRun_eq, length_linesOf .empty [], List.length_map] at hlength
    simpa using List.length_filter_eq_length_iff.mp hlength.symm
  · intro hfits
    refine ⟨?_, fun pre line b post hstream hpre hline hend hover => ?_⟩
    · rw [linesRun_eq, linesOf_eq (fun _ => rfl) hfits, List.filter_eq_self.mpr]
      · rfl
      · intro line hmem
        exact decide_eq_true (hfits line hmem)
    · refine absurd hover (hfits line ?_)
      rw [hstream, List.append_assoc]
      refine mem_splitLines hpre ?_ fun _ => rfl
      rw [lines, splitLines_append hline, splitLines, if_pos hend]
      exact List.mem_cons_self

/-- What is received of 81 characters and `reset`, in reads of at most 32 bytes. -/
def longLine : List (Except String (List RxByte)) :=
  [asciiBytes (String.ofList (List.replicate 32 'x')),
    asciiBytes (String.ofList (List.replicate 32 'x')),
    asciiBytes (String.ofList (List.replicate 17 'x')), asciiBytes "reset\n"].map fun bytes =>
      .ok (bytes.map fun b => ⟨b, .plain⟩)

/-- The end of a line that is too long is run. -/
theorem runs_end_of_line :
    let device : AppState :=
      ⟨.withNvs (.fails _) (.default {}) none, ⟨.erased, ∅⟩, ⟨.error "no slot", []⟩, false⟩
    linesRun device longLine = ["reset"] ∧ ¬ DiscardsOversized device longLine := by
  intro device
  have hrun : linesRun device longLine = ["reset"] := by
    rw [linesRun_eq]
    decide +kernel
  refine ⟨hrun, fun hdiscards => ?_⟩
  have hnone : (lines (stream longLine)).filter (fun line => ¬ Oversized line) = [] := by
    decide +kernel
  have hlines := hdiscards.run
  rw [hrun, hnone] at hlines
  exact nomatch hlines

end Serial

end WaterController
