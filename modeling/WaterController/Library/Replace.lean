import Mathlib.Data.List.Basic
import Mathlib.Data.List.Induction
import Mathlib.Data.List.Nodup
import Mathlib.Data.List.Pairwise
import Mathlib.Tactic.Common

/-!
# Find and replace

A text is a list of cells, and `f` reads the letter of a cell.  Cells of one letter
may differ, so that a text can say where each of its letters comes from.

`scan` goes over a text once, from left to right, and finds the patterns of some
keys.  `replace` puts a value in the place of each match of one pattern, and `loop`
does so for one key after the other.  `fill` puts all the values at once in the
places that one scan has found.  The main result, `found_loop_iff`, says when the
two agree cell by cell.
-/

namespace Replace

variable {α β κ : Type} [DecidableEq β]

/-! ## Scanning -/

/-- A part of a scanned text: a cell, or a match of the pattern of a key. -/
inductive Token (κ α : Type) where
  | kept (a : α)
  | hit (k : κ) (cells : List α)
deriving DecidableEq

/-- The cells of a part. -/
def Token.cells : Token κ α → List α
  | .kept a => [a]
  | .hit _ cells => cells

section Scan

variable (f : α → β) (pat : κ → List β) (keys : List κ)

/-- The key of the pattern at the start of a text, the first of the keys if there are
several. -/
def keyAt (text : List α) : Option κ := keys.find? fun k => decide (pat k <+: text.map f)

/-- Scan a text, behind cells that are part of a match. -/
def scanFrom : Nat → List α → List (Token κ α)
  | _, [] => []
  | skip + 1, _ :: rest => scanFrom skip rest
  | 0, a :: rest =>
      match keyAt f pat keys (a :: rest) with
      | some k => .hit k ((a :: rest).take (pat k).length) :: scanFrom ((pat k).length - 1) rest
      | none => .kept a :: scanFrom 0 rest

/-- Scan a text. -/
def scan (text : List α) : List (Token κ α) := scanFrom f pat keys 0 text

variable {f pat keys}

theorem mem_of_keyAt {text : List α} {k : κ} (h : keyAt f pat keys text = some k) :
    k ∈ keys ∧ pat k <+: text.map f := by
  rw [keyAt] at h
  exact ⟨List.mem_of_find?_eq_some h, by simpa using List.find?_some h⟩

theorem scanFrom_eq (skip : Nat) (text : List α) :
    scanFrom f pat keys skip text = scan f pat keys (text.drop skip) := by
  induction text generalizing skip with
  | nil => rw [List.drop_nil]; cases skip <;> rfl
  | cons a rest ih =>
      cases skip with
      | zero => rfl
      | succ skip => exact ih skip

@[simp] theorem scan_nil : scan f pat keys [] = [] := rfl

theorem scan_of_keyAt {text : List α} {k : κ} (h : keyAt f pat keys text = some k)
    (hne : pat k ≠ []) : scan f pat keys text =
      .hit k (text.take (pat k).length) :: scan f pat keys (text.drop (pat k).length) := by
  cases text with
  | nil =>
      exact absurd (List.prefix_nil.mp (mem_of_keyAt h).2) hne
  | cons a rest =>
      obtain ⟨b, bs, hpat⟩ := List.exists_cons_of_ne_nil hne
      rw [scan, scanFrom, h]
      simp only [scanFrom_eq]
      rw [hpat]
      rfl

theorem scan_cons_of_keyAt_none {a : α} {rest : List α}
    (h : keyAt f pat keys (a :: rest) = none) :
    scan f pat keys (a :: rest) = .kept a :: scan f pat keys rest := by
  rw [scan, scanFrom, h]
  rfl

variable (f keys) in
/-- The induction that a scan follows. -/
theorem scan_induct {motive : List α → Prop} (hne : ∀ k, pat k ≠ []) (nil : motive [])
    (kept : ∀ a rest, keyAt f pat keys (a :: rest) = none → motive rest → motive (a :: rest))
    (hit : ∀ text k, keyAt f pat keys text = some k → motive (text.drop (pat k).length) →
      motive text) : ∀ text, motive text
  | [] => nil
  | a :: rest =>
      match hkey : keyAt f pat keys (a :: rest) with
      | none => kept a rest hkey (scan_induct hne nil kept hit rest)
      | some k => hit (a :: rest) k hkey (scan_induct hne nil kept hit _)
termination_by text => text.length
decreasing_by
  · exact Nat.lt_succ_self _
  · have hpos := List.length_pos_of_ne_nil (hne k)
    rw [List.length_drop, List.length_cons]
    omega

/-- The parts of a text make up the text. -/
theorem flatMap_scan (hne : ∀ k, pat k ≠ []) (text : List α) :
    (scan f pat keys text).flatMap Token.cells = text := by
  induction text using scan_induct f keys hne with
  | nil => rfl
  | kept a rest hkey ih =>
      rw [scan_cons_of_keyAt_none hkey, List.flatMap_cons, ih]
      rfl
  | hit text k hkey ih =>
      rw [scan_of_keyAt hkey (hne k), List.flatMap_cons, ih]
      exact List.take_append_drop _ _

/-- A match has the letters of its pattern, and its key is one of the keys. -/
theorem hit_mem_scan (hne : ∀ k, pat k ≠ []) {text : List α} {k : κ} {cells : List α}
    (h : .hit k cells ∈ scan f pat keys text) : k ∈ keys ∧ cells.map f = pat k := by
  induction text using scan_induct f keys hne with
  | nil => exact absurd h List.not_mem_nil
  | kept a rest hkey ih =>
      rw [scan_cons_of_keyAt_none hkey] at h
      rcases List.mem_cons.mp h with h | h
      · cases h
      · exact ih h
  | hit text k' hkey ih =>
      rw [scan_of_keyAt hkey (hne k')] at h
      rcases List.mem_cons.mp h with h | h
      · cases h
        obtain ⟨hmem, hprefix⟩ := mem_of_keyAt hkey
        refine ⟨hmem, ?_⟩
        rw [List.map_take]
        exact (List.prefix_iff_eq_take.mp hprefix).symm
      · exact ih h

/-- Two parts of a text without a cell twice have no cell in common. -/
theorem token_eq_of_mem (hne : ∀ k, pat k ≠ []) {text : List α} (hnodup : text.Nodup) {x : α}
    {t t' : Token κ α} (ht : t ∈ scan f pat keys text) (ht' : t' ∈ scan f pat keys text) (hx : x ∈ t.cells)
    (hx' : x ∈ t'.cells) : t = t' := by
  by_contra hdiff
  rw [← @flatMap_scan _ _ _ _ f _ keys hne text, List.nodup_flatMap] at hnodup
  have hsymm : Std.Symm (Function.onFun List.Disjoint (@Token.cells α κ)) :=
    ⟨fun _ _ hdisjoint _ hx hx' => hdisjoint hx' hx⟩
  exact hnodup.2.forall ht ht' hdiff hx hx'

end Scan

/-! ## Replacing one pattern -/

/-- Put values in the place of matches.  A match of a key without a value stays. -/
def fill (value : κ → Option (List α)) (tokens : List (Token κ α)) : List α :=
  tokens.flatMap fun
    | .kept a => [a]
    | .hit k cells => (value k).getD cells

section Single

variable (f : α → β) (p : List β) (v : List α)

/-- Put a value in the place of each match of a pattern. -/
def replace (text : List α) : List α :=
  fill (fun _ => some v) (scan f (fun _ => p) [()] text)

/-- The matches of a pattern that `replace` finds. -/
def found (text : List α) : List (List α) :=
  (scan f (fun _ => p) [()] text).filterMap fun
    | .kept _ => none
    | .hit _ cells => some cells

variable {f p v}

theorem keyAt_single {text : List α} :
    keyAt f (fun _ => p) [()] text = if p <+: text.map f then some () else none := by
  simp only [keyAt, List.find?_cons, List.find?_nil]
  split_ifs with h <;> simp [h]

/-- A match is replaced, and the search goes on behind it. -/
theorem replace_append_of_match {cells : List α} (h : cells.map f = p) (hne : p ≠ [])
    (rest : List α) :
    replace f p v (cells ++ rest) = v ++ replace f p v rest ∧
      found f p (cells ++ rest) = cells :: found f p rest := by
  have hprefix : p <+: (cells ++ rest).map f := by
    rw [List.map_append, h]
    exact List.prefix_append _ _
  have hscan := scan_of_keyAt (keyAt_single.trans (if_pos hprefix)) hne
  rw [show p.length = cells.length by rw [← h, List.length_map], List.take_left, List.drop_left]
    at hscan
  rw [replace, found, hscan]
  exact ⟨rfl, rfl⟩

/-- A cell where no match starts is kept. -/
theorem replace_cons_of_not_match {a : α} {rest : List α} (h : ¬ p <+: (a :: rest).map f) :
    replace f p v (a :: rest) = a :: replace f p v rest ∧ found f p (a :: rest) = found f p rest := by
  rw [replace, found, scan_cons_of_keyAt_none (keyAt_single.trans (if_neg h))]
  exact ⟨rfl, rfl⟩

@[simp] theorem replace_nil : replace f p v [] = [] := rfl

@[simp] theorem found_nil : found f p ([] : List α) = [] := rfl

/-- Cells that no match found begins with are kept. -/
theorem replace_append_of_found {own : List α → Prop} (hne : p ≠ []) {cells rest : List α}
    (hcells : ∀ x ∈ cells, ∀ occ, own occ → x ∉ occ)
    (hown : ∀ occ ∈ found f p (cells ++ rest), own occ) :
    replace f p v (cells ++ rest) = cells ++ replace f p v rest ∧
      found f p (cells ++ rest) = found f p rest := by
  induction cells with
  | nil => exact ⟨rfl, rfl⟩
  | cons a cells ih =>
      have hmiss : ¬ p <+: (a :: (cells ++ rest)).map f := by
        intro hprefix
        have htake : ((a :: (cells ++ rest)).take p.length).map f = p := by
          rw [List.map_take]
          exact (List.prefix_iff_eq_take.mp hprefix).symm
        have hmatch := (replace_append_of_match (v := v) htake hne
          ((a :: (cells ++ rest)).drop p.length)).2
        rw [List.take_append_drop] at hmatch
        refine hcells a List.mem_cons_self ((a :: (cells ++ rest)).take p.length) (hown _ ?_) ?_
        · exact List.mem_of_mem_head? (by rw [List.cons_append, hmatch]; rfl)
        · obtain ⟨b, bs, rfl⟩ := List.exists_cons_of_ne_nil hne
          exact List.mem_cons_self
      obtain ⟨hreplace, hfound⟩ := replace_cons_of_not_match (v := v) hmiss
      rw [List.cons_append, hfound] at hown
      obtain ⟨ihreplace, ihfound⟩ := ih (fun x hx => hcells x (List.mem_cons_of_mem _ hx)) hown
      rw [List.cons_append, hreplace, hfound, ihreplace, ihfound]
      exact ⟨rfl, rfl⟩

/-- The induction that a replacement follows. -/
theorem replace_induct {motive : List α → Prop} (hne : p ≠ []) (nil : motive [])
    (kept : ∀ a rest, ¬ p <+: (a :: rest).map f → motive rest → motive (a :: rest))
    (hit : ∀ cells rest, cells.map f = p → motive rest → motive (cells ++ rest)) (text : List α) :
    motive text := by
  induction text using scan_induct f [()] (fun _ => hne) with
  | nil => exact nil
  | kept a rest hkey ih =>
      rw [keyAt_single] at hkey
      exact kept a rest (fun h => by rw [if_pos h] at hkey; exact nomatch hkey) ih
  | hit text k hkey ih =>
      rw [← List.take_append_drop p.length text]
      refine hit _ _ ?_ ih
      rw [List.map_take]
      exact (List.prefix_iff_eq_take.mp (mem_of_keyAt hkey).2).symm

omit [DecidableEq β] in
/-- A match does not reach over a letter that the pattern does not have. -/
theorem prefix_of_append_cons {c : β} (hc : c ∉ p) (xs : List β) {ys : List β} (h : p <+: xs ++ c :: ys) :
    p <+: xs := by
  obtain ⟨tail, htail⟩ := h
  rcases List.append_eq_append_iff.mp htail with ⟨as, hxs, _⟩ | ⟨bs, hp, hys⟩
  · exact ⟨as, hxs.symm⟩
  · cases bs with
    | nil => exact ⟨[], by rw [hp, List.append_nil, List.append_nil]⟩
    | cons b bs =>
        obtain rfl := (List.cons.inj hys).1
        exact absurd (hp ▸ List.mem_append_right xs List.mem_cons_self) hc

/-- A letter that the pattern does not have separates the matches. -/
theorem replace_append_cons (hne : p ≠ []) {c : α} (hc : f c ∉ p) (text rest : List α) :
    replace f p v (text ++ c :: rest) = replace f p v text ++ c :: replace f p v rest := by
  induction text using replace_induct (f := f) hne with
  | nil =>
      refine (replace_cons_of_not_match fun hprefix => hne ?_).1
      exact List.prefix_nil.mp (prefix_of_append_cons hc [] hprefix)
  | kept a text hmiss ih =>
      have hmiss' : ¬ p <+: (a :: (text ++ c :: rest)).map f := by
        intro hprefix
        rw [← List.cons_append, List.map_append] at hprefix
        exact hmiss (prefix_of_append_cons hc _ hprefix)
      rw [List.cons_append, (replace_cons_of_not_match hmiss').1, ih,
        (replace_cons_of_not_match hmiss).1]
      rfl
  | hit cells text hcells ih =>
      rw [List.append_assoc, (replace_append_of_match hcells hne _).1, ih,
        (replace_append_of_match hcells hne _).1, List.append_assoc]

/-! ### Plain texts -/

section Plain

variable {v : List β}

/-- A text where the pattern does not occur stays. -/
theorem replace_of_no_match (hne : p ≠ []) {text : List β} (h : ¬ p <:+: text) :
    replace id p v text = text := by
  induction text using replace_induct (f := id) hne with
  | nil => rfl
  | kept a text hmiss ih =>
      rw [(replace_cons_of_not_match hmiss).1, ih fun hin => h (List.infix_cons hin)]
  | hit cells text hcells ih =>
      rw [List.map_id] at hcells
      rw [hcells] at h
      exact absurd (List.prefix_append p text).isInfix h

/-- A replacement puts the letters of the value in for those of the pattern. -/
theorem count_replace (hne : p ≠ []) (c : β) (text : List β) :
    (replace id p v text).count c + (found id p text).length * p.count c =
      text.count c + (found id p text).length * v.count c := by
  induction text using replace_induct (f := id) hne with
  | nil => simp
  | kept a text hmiss ih =>
      obtain ⟨hreplace, hfound⟩ := replace_cons_of_not_match (v := v) hmiss
      rw [hreplace, hfound, List.count_cons, List.count_cons]
      omega
  | hit cells text hcells ih =>
      obtain ⟨hreplace, hfound⟩ := replace_append_of_match (v := v) hcells hne text
      rw [List.map_id] at hcells
      rw [hreplace, hfound, List.count_append, List.count_append, hcells, List.length_cons,
        Nat.succ_mul, Nat.succ_mul]
      omega

/-- Where the pattern occurs, a match is found. -/
theorem found_ne_nil (hne : p ≠ []) {text : List β} (h : p <:+: text) : found id p text ≠ [] := by
  induction text using replace_induct (f := id) hne with
  | nil => exact absurd (List.infix_nil.mp h) hne
  | kept a text hmiss ih =>
      rw [List.map_id] at hmiss
      rw [(replace_cons_of_not_match (v := []) (by rwa [List.map_id])).2]
      exact ih ((List.infix_cons_iff.mp h).resolve_left hmiss)
  | hit cells text hcells ih =>
      rw [(replace_append_of_match (v := []) hcells hne text).2]
      exact List.cons_ne_nil _ _

end Plain

end Single

/-! ## Replacing one key after the other -/

section Loop

variable [DecidableEq κ] (f : α → β) (pat : κ → List β) (value : κ → List α)

/-- Replace the patterns of the keys, one key after the other. -/
def loop (keys : List κ) (text : List α) : List α :=
  keys.foldl (fun text k => replace f (pat k) (value k) text) text

/-- Put the values of some keys in the places that a scan has found. -/
def fillSome (done : List κ) (tokens : List (Token κ α)) : List α :=
  fill (fun k => if k ∈ done then some (value k) else none) tokens

variable {f pat value} {keys : List κ} {text : List α}

omit [DecidableEq κ] in
theorem loop_append (before after : List κ) (text : List α) :
    loop f pat value (before ++ after) text =
      loop f pat value after (loop f pat value before text) := List.foldl_append

theorem fillSome_cons (done : List κ) (t : Token κ α) (tokens : List (Token κ α)) :
    fillSome value done (t :: tokens) = fillSome value done [t] ++ fillSome value done tokens := by
  simp only [fillSome, fill, List.flatMap_cons, List.flatMap_nil, List.append_nil]

/-- With the values of some keys in place, the search for another key replaces its own
places and nothing else, if all it finds is its own. -/
theorem replace_fillSome (hne : ∀ k, pat k ≠ []) (hnodup : text.Nodup)
    (hvalue : ∀ k, ∀ x ∈ value k, x ∉ text) {done : List κ} {k : κ} (hk : k ∉ done)
    (hown : ∀ occ ∈ found f (pat k) (fillSome value done (scan f pat keys text)),
      .hit k occ ∈ scan f pat keys text) :
    replace f (pat k) (value k) (fillSome value done (scan f pat keys text)) =
      fillSome value (done ++ [k]) (scan f pat keys text) := by
  suffices hall : ∀ tokens : List (Token κ α), (∀ t ∈ tokens, t ∈ scan f pat keys text) →
      (∀ occ ∈ found f (pat k) (fillSome value done tokens), .hit k occ ∈ scan f pat keys text) →
      replace f (pat k) (value k) (fillSome value done tokens) =
        fillSome value (done ++ [k]) tokens from hall _ (fun _ ht => ht) hown
  intro tokens
  induction tokens with
  | nil => exact fun _ _ => rfl
  | cons t tokens ih =>
      intro hmem hfound
      have ht := hmem t List.mem_cons_self
      have ih := ih fun t' ht' => hmem t' (List.mem_cons_of_mem _ ht')
      rw [fillSome_cons] at hfound ⊢
      rw [fillSome_cons (done ++ [k])]
      -- a part that is no place of the key stays, and nothing that is found begins in it
      have hstays : (∀ x ∈ fillSome value done [t], ∀ occ, .hit k occ ∈ scan f pat keys text →
          x ∉ occ) → fillSome value (done ++ [k]) [t] = fillSome value done [t] →
          replace f (pat k) (value k) (fillSome value done [t] ++ fillSome value done tokens) =
            fillSome value (done ++ [k]) [t] ++ fillSome value (done ++ [k]) tokens := by
        intro hcells hsame
        obtain ⟨hreplace, hrest⟩ := replace_append_of_found (v := value k) (hne k) hcells hfound
        rw [hreplace, hsame, ih (by rwa [hrest] at hfound)]
      cases t with
      | kept a =>
          refine hstays (fun x hx occ hocc hxocc => ?_) rfl
          exact nomatch token_eq_of_mem hne hnodup ht hocc hx hxocc
      | hit k' cells =>
          rcases eq_or_ne k' k with rfl | hdiff
          · have hcells : fillSome value done [.hit k' cells] = cells := by
              simp [fillSome, fill, hk]
            have hvalues : fillSome value (done ++ [k']) [.hit k' cells] = value k' := by
              simp [fillSome, fill]
            obtain ⟨hreplace, hrest⟩ := replace_append_of_match (v := value k')
              (hit_mem_scan hne ht).2 (hne k') (fillSome value done tokens)
            rw [hcells] at hfound ⊢
            rw [hreplace, hvalues, ih]
            rw [hrest] at hfound
            exact fun occ hocc => hfound occ (List.mem_cons_of_mem _ hocc)
          · have hsame : fillSome value (done ++ [k]) [.hit k' cells] =
                fillSome value done [.hit k' cells] := by
              simp [fillSome, fill, hdiff]
            refine hstays (fun x hx occ hocc hxocc => ?_) hsame
            by_cases hdone : k' ∈ done
            · have hx : x ∈ value k' := by simpa [fillSome, fill, hdone] using hx
              refine hvalue k' x hx ?_
              rw [← @flatMap_scan _ _ _ _ f _ keys hne text]
              exact List.mem_flatMap.mpr ⟨_, hocc, hxocc⟩
            · have hx : x ∈ cells := by simpa [fillSome, fill, hdone] using hx
              cases token_eq_of_mem hne hnodup ht hocc hx hxocc
              exact hdiff rfl

variable (f pat keys) in
/-- What is found for each key, in the text that the keys before it have left, is a
place of the key. -/
def FindsOwn (tokens : List (Token κ α)) (before : List κ → List α) : Prop :=
  ∀ done k rest, keys = done ++ k :: rest →
    ∀ occ ∈ found f (pat k) (before done), .hit k occ ∈ tokens

theorem fillSome_nil (hne : ∀ k, pat k ≠ []) :
    fillSome value [] (scan f pat keys text) = text := by
  refine Eq.trans ?_ (@flatMap_scan _ _ _ _ f _ keys hne text)
  refine List.flatMap_congr fun t _ => ?_
  cases t <;> simp [Token.cells]

/-- As long as each key finds its own places only, the loop has put the values of the
keys before it in their places. -/
theorem loop_eq_fillSome (hne : ∀ k, pat k ≠ []) (hnodup : text.Nodup)
    (hvalue : ∀ k, ∀ x ∈ value k, x ∉ text) (hkeys : keys.Nodup)
    (hown : ∀ done k rest, keys = done ++ k :: rest →
      loop f pat value done text = fillSome value done (scan f pat keys text) →
      ∀ occ ∈ found f (pat k) (fillSome value done (scan f pat keys text)),
        .hit k occ ∈ scan f pat keys text) (done rest : List κ) (hsplit : keys = done ++ rest) :
    loop f pat value done text = fillSome value done (scan f pat keys text) := by
  induction done using List.reverseRecOn generalizing rest with
  | nil => exact (fillSome_nil hne).symm
  | append_singleton done k ih =>
      have hsplit' : keys = done ++ k :: rest := by
        rw [hsplit, List.append_assoc]
        rfl
      have hk : k ∉ done := by
        rw [hsplit'] at hkeys
        exact fun hmem => (List.nodup_append.mp hkeys).2.2 k hmem k List.mem_cons_self rfl
      have hdone := ih (k :: rest) hsplit'
      rw [loop_append, hdone]
      exact replace_fillSome hne hnodup hvalue hk (hown done k rest hsplit' hdone)

/-- The loop replaces the places of the scan and nothing else exactly if, with the values
of the keys before it in place, each key is found at its own places only. -/
theorem findsOwn_loop_iff (hne : ∀ k, pat k ≠ []) (hnodup : text.Nodup)
    (hvalue : ∀ k, ∀ x ∈ value k, x ∉ text) (hkeys : keys.Nodup) :
    FindsOwn f pat keys (scan f pat keys text) (fun done => loop f pat value done text) ↔
      FindsOwn f pat keys (scan f pat keys text)
        (fun done => fillSome value done (scan f pat keys text)) := by
  constructor
  · intro hown done k rest hsplit occ hocc
    have hdone := loop_eq_fillSome hne hnodup hvalue hkeys
      (fun done k rest hsplit hdone occ hocc => hown done k rest hsplit occ (by simpa only [hdone]))
      done (k :: rest) hsplit
    exact hown done k rest hsplit occ (by simpa only [hdone])
  · intro hown done k rest hsplit occ hocc
    have hdone := loop_eq_fillSome hne hnodup hvalue hkeys
      (fun done k rest hsplit _ occ hocc => hown done k rest hsplit occ hocc) done (k :: rest) hsplit
    exact hown done k rest hsplit occ (by simpa only [hdone] using hocc)

/-- There the loop puts all the values at once in the places of the scan. -/
theorem loop_eq_fill (hne : ∀ k, pat k ≠ []) (hnodup : text.Nodup)
    (hvalue : ∀ k, ∀ x ∈ value k, x ∉ text) (hkeys : keys.Nodup)
    (hown : FindsOwn f pat keys (scan f pat keys text)
      (fun done => fillSome value done (scan f pat keys text))) :
    loop f pat value keys text = fill (fun k => some (value k)) (scan f pat keys text) := by
  rw [loop_eq_fillSome hne hnodup hvalue hkeys (fun done k rest hsplit _ => hown done k rest hsplit)
    keys [] (List.append_nil keys).symm]
  refine List.flatMap_congr fun t ht => ?_
  cases t with
  | kept a => rfl
  | hit k cells => simp [(hit_mem_scan hne ht).1]

end Loop

/-! ### Plain texts -/

section PlainLoop

variable {pat value : κ → List β} {keys : List κ}

theorem loop_nil (keys : List κ) : loop id pat value keys [] = [] := by
  induction keys with
  | nil => rfl
  | cons k keys ih => exact ih

/-- A letter that no pattern has separates the matches of all keys. -/
theorem loop_append_cons (hne : ∀ k, pat k ≠ []) {c : β} (hc : ∀ k ∈ keys, c ∉ pat k)
    (text rest : List β) : loop id pat value keys (text ++ c :: rest) =
      loop id pat value keys text ++ c :: loop id pat value keys rest := by
  induction keys generalizing text rest with
  | nil => rfl
  | cons k keys ih =>
      obtain ⟨hk, hkeys⟩ := List.forall_mem_cons.mp hc
      show loop id pat value keys (replace id (pat k) (value k) (text ++ c :: rest)) = _
      rw [replace_append_cons (hne k) hk, ih hkeys]
      rfl

/-- The parts of a text between such letters are rendered each by itself. -/
theorem loop_intercalate (hne : ∀ k, pat k ≠ []) {c : β} (hc : ∀ k ∈ keys, c ∉ pat k)
    (parts : List (List β)) : loop id pat value keys ([c].intercalate parts) =
      [c].intercalate (parts.map (loop id pat value keys)) := by
  induction parts with
  | nil => exact loop_nil keys
  | cons part parts ih =>
      cases parts with
      | nil => simp
      | cons part' parts =>
          rw [List.intercalate_cons_cons, List.append_assoc, List.singleton_append,
            loop_append_cons hne hc, ih, List.map_cons, List.map_cons, List.map_cons,
            List.intercalate_cons_cons, List.append_assoc, List.singleton_append]

theorem loop_of_no_match (hne : ∀ k, pat k ≠ []) {text : List β}
    (h : ∀ k ∈ keys, ¬ pat k <:+: text) : loop id pat value keys text = text := by
  induction keys with
  | nil => rfl
  | cons k keys ih =>
      obtain ⟨hk, hkeys⟩ := List.forall_mem_cons.mp h
      show loop id pat value keys (replace id (pat k) (value k) text) = text
      rw [replace_of_no_match (hne k) hk, ih hkeys]

/-- A letter of no pattern and no value is there as often as before. -/
theorem count_loop (hne : ∀ k, pat k ≠ []) {c : β}
    (h : ∀ k ∈ keys, (pat k).count c = 0 ∧ (value k).count c = 0) (text : List β) :
    (loop id pat value keys text).count c = text.count c := by
  induction keys generalizing text with
  | nil => rfl
  | cons k keys ih =>
      obtain ⟨⟨hpat, hvalue⟩, hkeys⟩ := List.forall_mem_cons.mp h
      have hcount := count_replace (v := value k) (hne k) c text
      rw [hpat, hvalue] at hcount
      exact (ih hkeys _).trans hcount

/-- A letter that each pattern has more often than its value gets fewer, unless no pattern
occurs. -/
theorem count_loop_le (hne : ∀ k, pat k ≠ []) {c : β}
    (h : ∀ k ∈ keys, (value k).count c < (pat k).count c) (text : List β) :
    (loop id pat value keys text).count c ≤ text.count c ∧
      (text.count c ≤ (loop id pat value keys text).count c → ∀ k ∈ keys, ¬ pat k <:+: text) := by
  induction keys generalizing text with
  | nil => exact ⟨Nat.le_refl _, fun _ => fun _ hk => absurd hk List.not_mem_nil⟩
  | cons k keys ih =>
      obtain ⟨hk, hkeys⟩ := List.forall_mem_cons.mp h
      have hcount := count_replace (v := value k) (hne k) c text
      have hless := Nat.mul_le_mul_left (found id (pat k) text).length (Nat.succ_le_of_lt hk)
      rw [Nat.mul_succ] at hless
      obtain ⟨hle, hnone⟩ := ih hkeys (replace id (pat k) (value k) text)
      refine ⟨Nat.le_trans hle (by omega), fun hge => ?_⟩
      have hge : text.count c ≤
          (loop id pat value keys (replace id (pat k) (value k) text)).count c := hge
      have hfound : (found id (pat k) text).length = 0 := by omega
      have hmiss : ¬ pat k <:+: text :=
        fun hin => found_ne_nil (hne k) hin (List.length_eq_zero_iff.mp hfound)
      rw [replace_of_no_match (hne k) hmiss] at hnone hge
      exact List.forall_mem_cons.mpr ⟨hmiss, hnone hge⟩

/-- A pattern that no key before its own occurs in is replaced by the value, and the value
is searched for the keys behind it. -/
theorem loop_pattern (hne : ∀ k, pat k ≠ []) {before after : List κ} {k : κ}
    (hbefore : ∀ k' ∈ before, ¬ pat k' <:+: pat k) :
    loop id pat value (before ++ k :: after) (pat k) = loop id pat value after (value k) := by
  have hmatch := (replace_append_of_match (v := value k) (List.map_id (pat k)) (hne k) []).1
  rw [List.append_nil, replace_nil, List.append_nil] at hmatch
  rw [loop_append, loop_of_no_match hne hbefore]
  exact congrArg (loop id pat value after) hmatch

end PlainLoop

/-! ## The letters of a text -/

section Letters

/-- A part with other cells. -/
def Token.map {α' : Type} (g : α → α') : Token κ α → Token κ α'
  | .kept a => .kept (g a)
  | .hit k cells => .hit k (cells.map g)

variable {f : α → β} {pat : κ → List β} {keys : List κ}

theorem scan_map (hne : ∀ k, pat k ≠ []) (text : List α) :
    scan id pat keys (text.map f) = (scan f pat keys text).map (Token.map f) := by
  have hkeyAt : ∀ text : List α, keyAt id pat keys (text.map f) = keyAt f pat keys text :=
    fun text => by rw [keyAt, keyAt, List.map_id]
  induction text using scan_induct f keys hne with
  | nil => rfl
  | kept a rest hkey ih =>
      rw [scan_cons_of_keyAt_none hkey, List.map_cons, List.map_cons, ← ih]
      exact scan_cons_of_keyAt_none (by rw [← List.map_cons, hkeyAt, hkey])
  | hit text k hkey ih =>
      rw [scan_of_keyAt hkey (hne k), scan_of_keyAt ((hkeyAt text).trans hkey) (hne k),
        List.map_cons, ← ih, ← List.map_drop, ← List.map_take]
      rfl

omit [DecidableEq β] in
theorem map_fill (value : κ → Option (List α)) (tokens : List (Token κ α)) :
    (fill value tokens).map f =
      fill (fun k => (value k).map (List.map f)) (tokens.map (Token.map f)) := by
  rw [fill, fill, List.map_flatMap, List.flatMap_map]
  refine List.flatMap_congr fun t _ => ?_
  cases t with
  | kept a => rfl
  | hit k cells => cases hvalue : value k <;> simp [Token.map, hvalue]

theorem map_replace {p : List β} (hne : p ≠ []) (v text : List α) :
    (replace f p v text).map f = replace id p (v.map f) (text.map f) := by
  rw [replace, map_fill, ← scan_map (fun _ => hne)]
  rfl

theorem map_loop {value : κ → List α} (hne : ∀ k, pat k ≠ []) (keys : List κ) (text : List α) :
    (loop f pat value keys text).map f =
      loop id pat (fun k => (value k).map f) keys (text.map f) := by
  induction keys generalizing text with
  | nil => rfl
  | cons k keys ih =>
      refine (ih _).trans ?_
      rw [map_replace (hne k)]
      rfl

end Letters

end Replace
