/-
# `Shv.Cmdline` — `cmdline.c`

`parse_cmdline` finds the words of the command line and hands each to `match_var`, which compares
it with the four prefixes and reads the number behind one.  It gives `tb_strtoull` the rest of the
line, not the word.  A number ends with the word it starts in, so that is the same thing unless
there is nothing behind the prefix: then `tb_strtoull` skips the blank and reads the next word.

* `parse_cmdline_fold_iff`: the line is a fold over its words exactly when no such bare prefix makes
  a difference;
* `numeric_options_exact_iff`: options are exact up to the width of `unsigned long`.
-/
import Shv.Strtoul
import Shv.Lib.Assign

namespace Shv

open CText

/-! ## The code -/

inductive CmdVar where
  | shvOpt
  | nmiOpt
  | nmiExp
  | timerMs
  deriving DecidableEq, Repr

/-- The characters of a C string literal. -/
def chars (s : String) : List Nat := s.toList.map Char.toNat

def cmdlineVars : List (CmdVar × List Nat) :=
  [(.shvOpt, chars "shv_opt="), (.nmiOpt, chars "nmi_opt="), (.nmiExp, chars "nmi_exp="),
    (.timerMs, chars "timer_ms=")]

/-- `g_shv_opt`, `g_nmi_opt`, `g_nmi_exp` and `g_timer_ms`. -/
abbrev CmdOpts := CmdVar → Nat

/-- `strlen`: the loop stops at the NUL. -/
def strlen (t : List Nat) (str : Nat) : CRun Nat := do
  let s ← skipWhile (· != 0) t (t.length + 1) str
  return s - str

/-- `memcmp(p1, s2, n) == 0`, where `s2` is the rest of a literal with `n` characters. -/
def memcmpEq (t : List Nat) (p1 : Nat) : List Nat → CRun Bool
  | [] => return true
  | c :: cs => do
      if (← read t p1) ≠ c then return false
      else memcmpEq t (p1 + 1) cs

/-- `strlen(begin_word) >= len && memcmp(begin_word, prefix, len) == 0`. -/
def startsWith (t : List Nat) (beginWord : Nat) (pre : List Nat) : CRun Bool := do
  let n ← strlen t beginWord
  if pre.length ≤ n then memcmpEq t beginWord pre else return false

/-- The loop of `match_var` over the rest of the table. -/
def matchVarLoop (arch : Arch) (t : List Nat) (beginWord : Nat) :
    List (CmdVar × List Nat) → CmdOpts → CRun CmdOpts
  | [], opts => return opts
  | (ptr, pre) :: vars, opts => do
      if ← startsWith t beginWord pre then
        let beginVal := beginWord + pre.length
        let (val, _endVal) ← tbStrtoull arch t beginVal 0
        matchVarLoop arch t beginWord vars (Function.update opts ptr val)
      else matchVarLoop arch t beginWord vars opts

/-- `match_var`; the end of the word is not used. -/
def matchVar (arch : Arch) (t : List Nat) (beginWord _endWord : Nat) (opts : CmdOpts) :
    CRun CmdOpts :=
  matchVarLoop arch t beginWord cmdlineVars opts

def parseCmdlineLoop (arch : Arch) (t : List Nat) : Nat → Nat → CmdOpts → CRun CmdOpts
  | 0, _, _ => .error .fuel
  | fuel + 1, beginWord, opts => do
      if (← read t beginWord) = 0 then return opts
      else
        let endWord ← skipWhile (fun c => c != 0 && !isspace c) t (t.length + 1) beginWord
        let opts ← matchVar arch t beginWord endWord opts
        let beginWord ← skipWhile isspace t (t.length + 1) endWord
        parseCmdlineLoop arch t fuel beginWord opts

def parseCmdline (arch : Arch) (t : List Nat) (opts : CmdOpts) : CRun CmdOpts :=
  parseCmdlineLoop arch t (t.length + 1) 0 opts

/-! ## Words -/

/-- A command line: characters other than NUL. -/
structure Cmdline where
  text : List Nat
  nonzero : ∀ c ∈ text, 0 < c ∧ c < 256

/-- The maximal blank-free words of a text. -/
def words (t : List Nat) : List (List Nat) := (t.splitOnP isspace).filter (· ≠ [])

/-- The texts from each word on; `start` tells whether a word may start here. -/
def wordTexts (start : Bool) : List Nat → List (List Nat)
  | [] => []
  | c :: cs =>
      if isspace c then wordTexts true cs
      else if start then (c :: cs) :: wordTexts false cs else wordTexts false cs

/-- The word a text starts with. -/
def wordOf (t : List Nat) : List Nat := t.takeWhile nonspace

/-- Splitting a text at its blanks: the rest of the current word, then the words after it. -/
theorem splitOnP_isspace (t : List Nat) : ∃ tl, t.splitOnP isspace = wordOf t :: tl ∧
    tl.filter (· ≠ []) = (wordTexts false t).map wordOf ∧
    (wordOf t :: tl).filter (· ≠ []) = (wordTexts true t).map wordOf := by
  induction t with
  | nil => exact ⟨[], rfl, rfl, rfl⟩
  | cons c cs ih =>
      obtain ⟨tl, hsplit, hfalse, htrue⟩ := ih
      rw [List.splitOnP_cons_eq_if_modifyHead, wordTexts, wordTexts]
      cases hc : isspace c with
      | true =>
          have hword : wordOf (c :: cs) = [] :=
            List.takeWhile_cons_of_neg (by simp [nonspace, hc])
          rw [if_pos rfl, if_pos rfl, hword, hsplit]
          exact ⟨_, rfl, htrue, htrue⟩
      | false =>
          have hword : wordOf (c :: cs) = c :: wordOf cs :=
            List.takeWhile_cons_of_pos (by simp [nonspace, hc])
          rw [if_neg Bool.false_ne_true, if_neg Bool.false_ne_true, hword, hsplit]
          refine ⟨tl, rfl, hfalse, ?_⟩
          rw [List.filter_cons_of_pos (by simp), hfalse, if_neg Bool.false_ne_true, if_pos rfl,
            List.map_cons, hword]

theorem words_eq (t : List Nat) : words t = (wordTexts true t).map wordOf := by
  obtain ⟨tl, hsplit, -, htrue⟩ := splitOnP_isspace t
  rw [words, hsplit, htrue]

theorem wordTexts_dropWhile (t : List Nat) :
    wordTexts true (t.dropWhile isspace) = wordTexts true t := by
  induction t with
  | nil => rfl
  | cons c cs ih =>
      cases hc : isspace c with
      | true => rw [List.dropWhile_cons_of_pos hc, ih, wordTexts, if_pos hc]
      | false => rw [List.dropWhile_cons_of_neg (by simp [hc])]

theorem wordTexts_false (t : List Nat) :
    wordTexts false t = wordTexts true (t.dropWhile nonspace) := by
  induction t with
  | nil => rfl
  | cons c cs ih =>
      cases hc : isspace c with
      | true =>
          rw [List.dropWhile_cons_of_neg (by simp [nonspace, hc]), wordTexts, wordTexts, if_pos hc,
            if_pos hc]
      | false =>
          rw [List.dropWhile_cons_of_pos (by simp [nonspace, hc]), ← ih, wordTexts,
            if_neg (by simp [hc]), if_neg Bool.false_ne_true]

/-! ## One word -/

/-- The number at the start of a text, as `tb_strtoull` returns it. -/
def valueOf (arch : Arch) (t : List Nat) : CRun Nat := strtoullValue arch (numberAt t)

/-- One entry of the table: if the text starts with its prefix, its variable is assigned what `num`
makes of the text behind. -/
def applyVar (num : List Nat → CRun Nat) (t : List Nat) (opts : CmdOpts)
    (var : CmdVar × List Nat) : CRun CmdOpts :=
  if var.2 <+: t then do
    let val ← num (t.drop var.2.length)
    return Function.update opts var.1 val
  else return opts

/-- What a word does to the options, reading its own characters only. -/
def applyWord (arch : Arch) (opts : CmdOpts) (word : List Nat) : CRun CmdOpts :=
  cmdlineVars.foldlM (applyVar (fun v => (tbStrtoull arch v 0 0).map Prod.fst) word) opts

/-- What `match_var` does: the number is read from the whole rest of the line. -/
def applyText (arch : Arch) (opts : CmdOpts) (t : List Nat) : CRun CmdOpts :=
  cmdlineVars.foldlM (applyVar (valueOf arch) t) opts

variable {arch : Arch} {t : List Nat} {i : Nat}

theorem takeWhile_ne_zero (h : ∀ c ∈ t, 0 < c ∧ c < 256) : t.takeWhile (· != 0) = t := by
  induction t with
  | nil => rfl
  | cons c cs ih =>
      have hc := h c List.mem_cons_self
      rw [List.takeWhile_cons_of_pos (by simp; omega),
        ih fun x hx => h x (List.mem_cons_of_mem c hx)]

theorem strlen_eq (h : ∀ c ∈ t, 0 < c ∧ c < 256) (hi : i ≤ t.length) :
    strlen t i = .ok (t.length - i) := by
  have hdrop : (t.drop i).takeWhile (· != 0) = t.drop i :=
    takeWhile_ne_zero fun c hc => h c (List.mem_of_mem_drop hc)
  rw [strlen, skipWhile_eq rfl hi (by omega), hdrop, List.length_drop, CRun.ok_bind, CRun.pure_eq]
  congr 1
  omega

theorem memcmpEq_eq (pre : List Nat) : ∀ i, i + pre.length ≤ t.length →
    memcmpEq t i pre = .ok (decide (pre <+: t.drop i)) := by
  induction pre with
  | nil => exact fun i _ => by simp [memcmpEq]
  | cons c cs ih =>
      intro i hi
      rw [List.length_cons] at hi
      cases hdrop : t.drop i with
      | nil =>
          have := List.drop_eq_nil_iff.mp hdrop
          omega
      | cons x xs =>
          obtain ⟨hread, hdrop', -⟩ := read_cons hdrop
          rw [memcmpEq, hread, CRun.ok_bind, ih (i + 1) (by omega), hdrop']
          by_cases hx : x = c
          · simp [hx, List.cons_prefix_cons]
          · simp [hx, Ne.symm hx, List.cons_prefix_cons]

theorem matchVarLoop_eq (h : ∀ c ∈ t, 0 < c ∧ c < 256) (hi : i ≤ t.length)
    (vars : List (CmdVar × List Nat)) : ∀ opts, matchVarLoop arch t i vars opts =
      vars.foldlM (applyVar (valueOf arch) (t.drop i)) opts := by
  induction vars with
  | nil => exact fun opts => rfl
  | cons var vars ih =>
      intro opts
      obtain ⟨ptr, pre⟩ := var
      have hcmp : startsWith t i pre = .ok (decide (pre <+: t.drop i)) := by
        rw [startsWith, strlen_eq h hi, CRun.ok_bind]
        split
        next hle => exact memcmpEq_eq pre i (by omega)
        next hle =>
            have hno : ¬ pre <+: t.drop i := by
              intro hpre
              have := hpre.length_le
              rw [List.length_drop] at this
              exact hle this
            rw [decide_eq_false hno]
            rfl
      rw [matchVarLoop, hcmp, CRun.ok_bind, List.foldlM_cons, applyVar]
      by_cases hpre : pre <+: t.drop i
      · have hle : i + pre.length ≤ t.length := by
          have := hpre.length_le
          rw [List.length_drop] at this
          omega
        rw [if_pos (decide_eq_true hpre), if_pos hpre, valueOf, List.drop_drop,
          ← tbStrtoull_eq arch hle]
        dsimp only
        cases tbStrtoull arch t (i + pre.length) 0 with
        | error e => rfl
        | ok r => exact ih _
      · rw [if_neg (by simpa using hpre), if_neg hpre]
        exact ih opts

theorem applyText_blank {c : Nat} {cs : List Nat} (hc : isspace c = true) (opts : CmdOpts) :
    applyText arch opts (c :: cs) = .ok opts := by
  have hhead : ∀ var ∈ cmdlineVars, ∃ x xs, var.2 = x :: xs ∧ isspace x = false := by
    intro var hvar
    simp only [cmdlineVars, List.mem_cons, List.not_mem_nil, or_false] at hvar
    rcases hvar with rfl | rfl | rfl | rfl <;> exact ⟨_, _, rfl, rfl⟩
  have hno : ∀ var ∈ cmdlineVars, ¬ var.2 <+: c :: cs := by
    intro var hvar hpre
    obtain ⟨x, xs, heq, hx⟩ := hhead var hvar
    rw [heq, List.cons_prefix_cons] at hpre
    rw [hpre.1, hc] at hx
    cases hx
  have hloop : ∀ vars : List (CmdVar × List Nat), (∀ var ∈ vars, ¬ var.2 <+: c :: cs) →
      vars.foldlM (applyVar (valueOf arch) (c :: cs)) opts = .ok opts := by
    intro vars hvars
    induction vars with
    | nil => rfl
    | cons var vars ih =>
        rw [List.foldlM_cons, applyVar, if_neg (hvars var List.mem_cons_self)]
        exact ih fun v hv => hvars v (List.mem_cons_of_mem var hv)
  exact hloop cmdlineVars hno

/-! ## The whole line -/

theorem dropWhile_wordChar (h : ∀ c ∈ t, 0 < c ∧ c < 256) :
    t.dropWhile (fun c => c != 0 && !isspace c) = t.dropWhile nonspace := by
  induction t with
  | nil => rfl
  | cons c cs ih =>
      have hc := h c List.mem_cons_self
      have hne : (c != 0) = true := bne_iff_ne.mpr (Nat.ne_of_gt hc.1)
      simp only [List.dropWhile_cons, hne, Bool.true_and, nonspace]
      rw [ih fun x hx => h x (List.mem_cons_of_mem c hx)]
      rfl

/-- The text at which the next word starts, behind the word and the blanks `t` starts with. -/
def nextText (t : List Nat) : List Nat := (t.dropWhile nonspace).dropWhile isspace

theorem nextText_length (c : Nat) (cs : List Nat) : (nextText (c :: cs)).length ≤ cs.length := by
  refine List.Sublist.length_le ?_
  rw [nextText]
  cases hc : isspace c with
  | true =>
      rw [List.dropWhile_cons_of_neg (by simp [nonspace, hc]), List.dropWhile_cons_of_pos hc]
      exact List.dropWhile_sublist _
  | false =>
      rw [List.dropWhile_cons_of_pos (by simp [nonspace, hc])]
      exact (List.dropWhile_sublist _).trans (List.dropWhile_sublist _)

/-- The words of a text are the one it starts with and those of the next text; a blank at the start
is handled as a word and does nothing. -/
theorem foldlM_wordTexts (c : Nat) (cs : List Nat) (opts : CmdOpts) :
    (wordTexts true (c :: cs)).foldlM (applyText arch) opts =
      applyText arch opts (c :: cs) >>=
        (wordTexts true (nextText (c :: cs))).foldlM (applyText arch) := by
  rw [nextText, wordTexts_dropWhile]
  cases hc : isspace c with
  | true =>
      rw [applyText_blank hc, CRun.ok_bind, List.dropWhile_cons_of_neg (by simp [nonspace, hc])]
  | false =>
      rw [wordTexts, if_neg (by simp [hc]), if_pos rfl, List.foldlM_cons, wordTexts_false,
        List.dropWhile_cons_of_pos (by simp [nonspace, hc])]

/-- One round of the loop: `match_var` on the text at hand, then on from the next text. -/
theorem parseCmdlineLoop_round (h : ∀ c ∈ t, 0 < c ∧ c < 256) (fuel : Nat) {c : Nat} {cs : List Nat}
    (hdrop : t.drop i = c :: cs) (opts : CmdOpts) :
    ∃ b, b ≤ t.length ∧ t.drop b = nextText (c :: cs) ∧
      parseCmdlineLoop arch t (fuel + 1) i opts =
        applyText arch opts (c :: cs) >>= parseCmdlineLoop arch t fuel b := by
  obtain ⟨hread, -, hlt⟩ := read_cons hdrop
  have hi := Nat.le_of_succ_le hlt
  have hmem : ∀ x ∈ c :: cs, 0 < x ∧ x < 256 := by
    intro x hx
    rw [← hdrop] at hx
    exact h x (List.mem_of_mem_drop hx)
  -- `endWord` and the next `beginWord`
  have hle₁ := skip_le (fun c => c != 0 && !isspace c) hi
  have hdrop₁ := drop_skip (fun c => c != 0 && !isspace c) t i
  have hend : skipWhile (fun c => c != 0 && !isspace c) t (t.length + 1) i = .ok _ :=
    skipWhile_eq rfl hi (by omega)
  generalize i + ((t.drop i).takeWhile fun c => c != 0 && !isspace c).length = e
    at hle₁ hdrop₁ hend
  rw [hdrop, dropWhile_wordChar hmem] at hdrop₁
  have hnext : skipWhile isspace t (t.length + 1) e = .ok _ := skipWhile_eq rfl hle₁ (by omega)
  refine ⟨_, skip_le isspace hle₁, (drop_skip isspace t e).trans (by rw [hdrop₁, nextText]), ?_⟩
  have hc : c ≠ 0 := Nat.ne_of_gt (hmem c List.mem_cons_self).1
  have hmatch : matchVar arch t i e opts = applyText arch opts (c :: cs) := by
    rw [matchVar, matchVarLoop_eq h hi, hdrop]
    rfl
  rw [parseCmdlineLoop, hread, CRun.ok_bind, if_neg hc, hend, CRun.ok_bind, hmatch]
  exact bind_congr fun opts => by rw [hnext, CRun.ok_bind]

/-- From an offset at which a word may start, the loop handles the words from there on. -/
theorem parseCmdlineLoop_eq (h : ∀ c ∈ t, 0 < c ∧ c < 256) : ∀ (fuel i : Nat) (opts : CmdOpts),
    i ≤ t.length → t.length - i < fuel → parseCmdlineLoop arch t fuel i opts =
      (wordTexts true (t.drop i)).foldlM (applyText arch) opts := by
  intro fuel
  induction fuel with
  | zero => intro i opts _ hf; omega
  | succ fuel ih =>
      intro i opts hi hf
      cases hdrop : t.drop i with
      | nil => rw [parseCmdlineLoop, read_nil hdrop hi, CRun.ok_bind, if_pos rfl]; rfl
      | cons c cs =>
          obtain ⟨b, hb, hnext, hround⟩ := parseCmdlineLoop_round h fuel hdrop opts
          have hlen : t.length - b < fuel := by
            have hle := nextText_length c cs
            have hcs := congrArg List.length hdrop
            rw [← hnext, List.length_drop] at hle
            rw [List.length_drop, List.length_cons] at hcs
            omega
          rw [hround, foldlM_wordTexts, ← hnext]
          exact bind_congr fun opts => ih b opts hb hlen

theorem parseCmdline_eq (line : Cmdline) (opts : CmdOpts) :
    parseCmdline arch line.text opts =
      (wordTexts true line.text).foldlM (applyText arch) opts :=
  parseCmdlineLoop_eq line.nonzero _ _ opts (Nat.zero_le _) (Nat.lt_succ_self _)

/-! ## The line as a list of assignments -/

/-- The assignments one text makes: the variable, and the text behind its prefix. -/
def assignmentsOf (vars : List (CmdVar × List Nat)) (t : List Nat) : List (CmdVar × List Nat) :=
  vars.filterMap fun var => if var.2 <+: t then some (var.1, t.drop var.2.length) else none

/-- The assignments of a line: for each word with a prefix, the variable and the line behind the
prefix. -/
def assignments (t : List Nat) : List (CmdVar × List Nat) :=
  (wordTexts true t).flatMap (assignmentsOf cmdlineVars)

theorem applyVar_run (num : List Nat → CRun Nat) (t : List Nat) (vars : List (CmdVar × List Nat)) :
    ∀ opts, vars.foldlM (applyVar num t) opts = Assign.run num opts (assignmentsOf vars t) := by
  induction vars with
  | nil => exact fun _ => rfl
  | cons var vars ih =>
      intro opts
      rw [List.foldlM_cons, applyVar, assignmentsOf]
      by_cases hpre : var.2 <+: t
      · rw [List.filterMap_cons]
        simp only [if_pos hpre]
        rw [Assign.run, List.foldlM_cons]
        dsimp only
        cases num (t.drop var.2.length) with
        | error e => rfl
        | ok v => exact ih _
      · rw [List.filterMap_cons]
        simp only [if_neg hpre]
        exact ih opts

theorem foldlM_run (num : List Nat → CRun Nat) (ts : List (List Nat)) : ∀ opts,
    ts.foldlM (fun opts t => cmdlineVars.foldlM (applyVar num t) opts) opts =
      Assign.run num opts (ts.flatMap (assignmentsOf cmdlineVars)) := by
  induction ts with
  | nil => exact fun _ => rfl
  | cons t ts ih =>
      intro opts
      rw [List.foldlM_cons, List.flatMap_cons, Assign.run_append, applyVar_run]
      exact bind_congr fun opts => ih opts

theorem parseCmdline_run (line : Cmdline) (opts : CmdOpts) :
    parseCmdline arch line.text opts =
      Assign.run (valueOf arch) opts (assignments line.text) := by
  rw [parseCmdline_eq]
  exact foldlM_run (valueOf arch) _ opts

theorem startsWith_wordOf {pre : List Nat} (hpre : ∀ c ∈ pre, nonspace c = true) (t : List Nat) :
    (pre <+: wordOf t ↔ pre <+: t) ∧
      (pre <+: t → (wordOf t).drop pre.length = wordOf (t.drop pre.length)) := by
  have hsplit : pre <+: t → (wordOf t) = pre ++ wordOf (t.drop pre.length) := by
    rintro ⟨rest, rfl⟩
    rw [List.drop_left, wordOf, List.takeWhile_append_of_pos hpre, wordOf]
  refine ⟨⟨fun h => ?_, fun h => ?_⟩, fun h => ?_⟩
  · refine h.trans ⟨t.dropWhile nonspace, List.takeWhile_append_dropWhile⟩
  · rw [hsplit h]
    exact ⟨_, rfl⟩
  · rw [hsplit h, List.drop_left]

theorem cmdlineVars_nonspace {var : CmdVar × List Nat} (h : var ∈ cmdlineVars) :
    ∀ c ∈ var.2, nonspace c = true := by
  have hall : cmdlineVars.all (fun var => var.2.all nonspace) = true := by decide
  exact List.all_eq_true.mp (List.all_eq_true.mp hall var h)

theorem words_run (arch : Arch) (t : List Nat) (opts : CmdOpts) :
    (words t).foldlM (applyWord arch) opts =
      Assign.run (fun v => valueOf arch (wordOf v)) opts (assignments t) := by
  have hnum : (fun v => (tbStrtoull arch v 0 0).map Prod.fst) = valueOf arch := by
    funext v
    rw [tbStrtoull_eq arch (Nat.zero_le _)]
    rfl
  have hword : ∀ t opts, applyWord arch opts (wordOf t) =
      cmdlineVars.foldlM (applyVar (fun v => valueOf arch (wordOf v)) t) opts := by
    intro t opts
    have hvars : ∀ vars : List (CmdVar × List Nat),
        (∀ var ∈ vars, ∀ c ∈ var.2, nonspace c = true) → ∀ opts,
        vars.foldlM (applyVar (valueOf arch) (wordOf t)) opts =
          vars.foldlM (applyVar (fun v => valueOf arch (wordOf v)) t) opts := by
      intro vars
      induction vars with
      | nil => exact fun _ _ => rfl
      | cons var vars ih =>
          intro hvars opts
          obtain ⟨hiff, hdrop⟩ := startsWith_wordOf (hvars var List.mem_cons_self) t
          have hvar : applyVar (valueOf arch) (wordOf t) opts var =
              applyVar (fun v => valueOf arch (wordOf v)) t opts var := by
            by_cases hpre : var.2 <+: t
            · rw [applyVar, applyVar, if_pos (hiff.mpr hpre), if_pos hpre, hdrop hpre]
            · rw [applyVar, applyVar, if_neg (mt hiff.mp hpre), if_neg hpre]
          rw [List.foldlM_cons, List.foldlM_cons, hvar]
          exact bind_congr fun opts => ih (fun v hv => hvars v (List.mem_cons_of_mem var hv)) opts
    rw [applyWord, hnum]
    exact hvars cmdlineVars (fun var hvar => cmdlineVars_nonspace hvar) opts
  rw [words_eq, List.foldlM_map]
  simp only [hword]
  exact foldlM_run _ _ opts

/-! ## Bare prefixes -/

/-- `parse_cmdline` reads nothing past the NUL, ends, and is the fold over the words of the line
(which halts if one of their numbers takes more than 64 bits). -/
def ParseIsFold (arch : Arch) (line : Cmdline) (opts : CmdOpts) : Prop :=
  parseCmdline arch line.text opts ≠ .error .overread ∧
    parseCmdline arch line.text opts ≠ .error .fuel ∧
    parseCmdline arch line.text opts = (words line.text).foldlM (applyWord arch) opts

/-- Prefixes with nothing behind them do no harm: a number that does not fit stands in a word of
its own option, so that both halt; or what follows a bare prefix always fits, and is 0 if nothing
is assigned to the variable later. -/
def BareHarmless (arch : Arch) (line : Cmdline) : Prop :=
  (∃ a ∈ assignments line.text, 2 ^ 64 ≤ (numberAt (wordOf a.2)).2) ∨
    ((∀ a ∈ assignments line.text, wordOf a.2 = [] → (numberAt a.2).2 < 2 ^ 64) ∧
      ∀ var rest, Assign.last var (assignments line.text) = some rest → wordOf rest = [] →
        valueOf arch rest = .ok 0)

theorem valueOf_error {v : List Nat} {e : Stop} (h : valueOf arch v = .error e) : e = .halt := by
  unfold valueOf strtoullValue at h
  split at h
  · cases h
  · exact (Except.error.inj h).symm

theorem valueOf_halt (arch : Arch) (v : List Nat) :
    valueOf arch v = .error .halt ↔ 2 ^ 64 ≤ (numberAt v).2 := by
  unfold valueOf strtoullValue
  split
  next h => exact iff_of_false (fun hc => nomatch hc) (Nat.not_le.mpr h)
  next h => exact iff_of_true rfl (Nat.le_of_not_lt h)

theorem valueOf_wordOf {v : List Nat} (h : wordOf v ≠ []) :
    valueOf arch (wordOf v) = valueOf arch v := by
  rw [valueOf, valueOf, wordOf, numberAt_takeWhile h]

theorem valueOf_nil (arch : Arch) : valueOf arch [] = .ok 0 := by
  cases arch <;> rfl

theorem valueOf_halt_of_wordOf {v : List Nat} (h : valueOf arch (wordOf v) = .error .halt) :
    valueOf arch v = .error .halt := by
  by_cases hw : wordOf v = []
  · rw [hw, valueOf_nil] at h
    cases h
  · rwa [valueOf_wordOf hw] at h

theorem parseCmdline_error {line : Cmdline} {opts : CmdOpts} {e : Stop}
    (h : parseCmdline arch line.text opts = .error e) : e = .halt := by
  rw [parseCmdline_run] at h
  by_cases hhalt : ∃ a ∈ assignments line.text, valueOf arch a.2 = .error .halt
  · have hrun := Assign.run_error (f := valueOf arch) (o := opts) (fun _ _ h => valueOf_error h)
      hhalt
    exact (Except.error.inj (hrun.symm.trans h)).symm
  · have hok : ∀ a ∈ assignments line.text, ∃ v, valueOf arch a.2 = .ok v := by
      intro a ha
      cases hv : valueOf arch a.2 with
      | ok v => exact ⟨v, rfl⟩
      | error e' => exact absurd ⟨a, ha, by rw [hv, valueOf_error hv]⟩ hhalt
    obtain ⟨o, hrun, -⟩ := Assign.run_ok (o := opts) hok
    rw [hrun] at h
    cases h

theorem parseIsFold_iff (arch : Arch) (line : Cmdline) (opts : CmdOpts) :
    ParseIsFold arch line opts ↔
      parseCmdline arch line.text opts = (words line.text).foldlM (applyWord arch) opts := by
  refine ⟨fun h => h.2.2, fun h => ⟨fun he => ?_, fun he => ?_, h⟩⟩
  · cases parseCmdline_error he
  · cases parseCmdline_error he

/-- **`parse_cmdline` is a fold over words** as long as bare prefixes do no harm. -/
theorem parse_cmdline_fold_iff (arch : Arch) (line : Cmdline) (opts : CmdOpts) :
    ParseIsFold arch line opts ↔ BareHarmless arch line := by
  have hkey := Assign.run_eq_iff (o := opts) (E := assignments line.text)
    (fun _ _ (h : valueOf arch _ = _) => valueOf_error h)
    (fun t _ (h : valueOf arch (wordOf t) = _) => valueOf_error h)
    fun _ => valueOf_halt_of_wordOf
  rw [← parseCmdline_run, ← words_run] at hkey
  rw [parseIsFold_iff, hkey, BareHarmless]
  simp only [valueOf_halt]
  refine or_congr_right' fun hown => and_congr ?_ ?_
  · -- what follows a prefix that is not bare is the word's own number
    refine forall₂_congr fun a ha => ?_
    rw [ne_eq, valueOf_halt, Nat.not_le]
    refine ⟨fun h _ => h, fun h => ?_⟩
    by_cases hw : wordOf a.2 = []
    · exact h hw
    · by_contra hge
      refine hown ⟨a, ha, ?_⟩
      rw [wordOf, numberAt_takeWhile hw]
      exact Nat.le_of_not_lt hge
  · refine forall₂_congr fun var rest => forall_congr' fun _ => ?_
    by_cases hw : wordOf rest = []
    · rw [hw, valueOf_nil]
      exact ⟨fun h _ => h, fun h => h rfl⟩
    · rw [valueOf_wordOf hw]
      exact iff_of_true rfl fun h => absurd h hw

/-- `shv_opt= 5` sets the option to 5, though the word has no number. -/
theorem parse_cmdline_bare :
    (parseCmdline .amd64 (chars "shv_opt= 5") fun _ => 0).map (· .shvOpt) = .ok 5 ∧
    ((words (chars "shv_opt= 5")).foldlM (applyWord .amd64) fun _ => 0).map (· .shvOpt) = .ok 0 ∧
    ¬ ParseIsFold .amd64 ⟨chars "shv_opt= 5", by decide⟩ fun _ => 0 := by
  have hcode : (parseCmdline .amd64 (chars "shv_opt= 5") fun _ => 0).map (· .shvOpt) = .ok 5 := by
    decide
  have hfold : ((words (chars "shv_opt= 5")).foldlM (applyWord .amd64) fun _ => 0).map
      (· .shvOpt) = .ok 0 := by
    decide
  refine ⟨hcode, hfold, fun h => ?_⟩
  rw [← h.2.2, hcode] at hfold
  cases hfold

/-! ## Numeric options -/

theorem cmdlineVars_unique {var var' : CmdVar × List Nat} (h : var ∈ cmdlineVars)
    (h' : var' ∈ cmdlineVars) (hpre : var.2 <+: t) (hpre' : var'.2 <+: t) : var = var' := by
  have hfree : ∀ var ∈ cmdlineVars, ∀ var' ∈ cmdlineVars, var.2 <+: var'.2 → var = var' := by
    decide
  rcases List.prefix_or_prefix_of_prefix hpre hpre' with hle | hle
  · exact hfree var h var' h' hle
  · exact (hfree var' h' var h hle).symm

theorem assignmentsOf_eq {var : CmdVar × List Nat} (h : var ∈ cmdlineVars) (hpre : var.2 <+: t) :
    assignmentsOf cmdlineVars t = [(var.1, t.drop var.2.length)] := by
  have hother : ∀ var' ∈ cmdlineVars, var' ≠ var → ¬ var'.2 <+: t :=
    fun var' h' hne hpre' => hne (cmdlineVars_unique h' h hpre' hpre)
  have hloop : ∀ vars : List (CmdVar × List Nat), vars.Nodup → (∀ v ∈ vars, v ∈ cmdlineVars) →
      assignmentsOf vars t = if var ∈ vars then [(var.1, t.drop var.2.length)] else [] := by
    intro vars hnodup hsub
    induction vars with
    | nil => rfl
    | cons v vars ih =>
        have ih := ih hnodup.of_cons fun x hx => hsub x (List.mem_cons_of_mem v hx)
        rw [assignmentsOf] at ih ⊢
        rw [List.filterMap_cons]
        by_cases hv : v = var
        · subst hv
          rw [if_neg (List.nodup_cons.mp hnodup).1] at ih
          simp [hpre, ih]
        · simp only [if_neg (hother v (hsub v List.mem_cons_self) hv), ih, List.mem_cons,
            Ne.symm hv, false_or]
  rw [hloop cmdlineVars (by decide) fun _ hv => hv, if_pos h]

theorem assignmentsOf_nil (h : ∀ var ∈ cmdlineVars, ¬ var.2 <+: t) :
    assignmentsOf cmdlineVars t = [] := by
  rw [assignmentsOf, List.filterMap_eq_nil_iff]
  intro var hvar
  exact if_neg (h var hvar)

/-- A word that has one of the prefixes. -/
def matching (word : List Nat) : Bool := cmdlineVars.any fun var => decide (var.2 <+: word)

theorem assignmentsOf_of_not_matching (h : matching (wordOf t) = false) :
    assignmentsOf cmdlineVars t = [] := by
  apply assignmentsOf_nil
  intro var hvar hpre
  rw [← (startsWith_wordOf (cmdlineVars_nonspace hvar) t).1] at hpre
  have hmatch : matching (wordOf t) = true := List.any_eq_true.mpr ⟨var, hvar, decide_eq_true hpre⟩
  rw [h] at hmatch
  cases hmatch

theorem assignmentsOf_of_wordOf {var : CmdVar × List Nat} {d : List Nat} (hvar : var ∈ cmdlineVars)
    (h : wordOf t = var.2 ++ d) :
    ∃ rest, wordOf rest = d ∧ assignmentsOf cmdlineVars t = [(var.1, rest)] := by
  obtain ⟨hiff, hdrop⟩ := startsWith_wordOf (cmdlineVars_nonspace hvar) t
  have hpre : var.2 <+: t := hiff.mp ⟨d, h.symm⟩
  refine ⟨_, ?_, assignmentsOf_eq hvar hpre⟩
  rw [← hdrop hpre, h, List.drop_left]

theorem assignments_of_matching {var : CmdVar} {pre d : List Nat} (hvar : (var, pre) ∈ cmdlineVars)
    (hline : (words t).filter matching = [pre ++ d]) :
    ∃ rest, wordOf rest = d ∧ assignments t = [(var, rest)] := by
  have hloop : ∀ ts : List (List Nat), (ts.map wordOf).filter matching = [pre ++ d] →
      ∃ rest, wordOf rest = d ∧ ts.flatMap (assignmentsOf cmdlineVars) = [(var, rest)] := by
    intro ts
    induction ts with
    | nil => exact fun h => nomatch h
    | cons t ts ih =>
        intro h
        rw [List.map_cons] at h
        rw [List.flatMap_cons]
        cases hm : matching (wordOf t) with
        | false =>
            rw [List.filter_cons_of_neg (by simp [hm])] at h
            rw [assignmentsOf_of_not_matching hm]
            exact ih h
        | true =>
            rw [List.filter_cons_of_pos hm, List.cons.injEq] at h
            obtain ⟨rest, hrest, hone⟩ := assignmentsOf_of_wordOf hvar h.1
            refine ⟨rest, hrest, ?_⟩
            have hnone : ts.flatMap (assignmentsOf cmdlineVars) = [] := by
              rw [List.flatMap_eq_nil_iff]
              intro t' ht'
              apply assignmentsOf_of_not_matching
              have hno := List.filter_eq_nil_iff.mp h.2 _ (List.mem_map_of_mem ht')
              exact Bool.eq_false_iff.mpr hno
            rw [hone, hnone, List.append_nil]
  rw [words_eq] at hline
  exact hloop _ hline

/-- **Numeric options are exact** on amd64; on i386 those from 2^32 to 2^64 - 1 lose their upper
half. -/
theorem numeric_options_exact_iff (arch : Arch) (line : Cmdline) (opts : CmdOpts) {var : CmdVar}
    {pre d : List Nat} {n : Nat} (hvar : (var, pre) ∈ cmdlineVars) (hd : Numeral d n)
    (hline : (words line.text).filter matching = [pre ++ d]) :
    parseCmdline arch line.text opts =
        (if n < 2 ^ 64 then .ok (Function.update opts var n) else .error .halt) ↔
      arch = .amd64 ∨ n < 2 ^ 32 ∨ 2 ^ 64 ≤ n := by
  obtain ⟨rest, hrest, hassign⟩ := assignments_of_matching hvar hline
  have hnum : numberAt rest = (false, n) := by
    rw [← hd.numberAt_eq, ← hrest]
    exact (numberAt_takeWhile (by rw [← wordOf, hrest]; exact hd.nonspace.1)).symm
  have hparse : parseCmdline arch line.text opts =
      if n < 2 ^ 64 then .ok (Function.update opts var (n % 2 ^ arch.ptrBits))
      else .error .halt := by
    rw [parseCmdline_run, hassign]
    refine (Assign.run_singleton _ _ _).trans ?_
    rw [valueOf, hnum, strtoullValue]
    split
    next => rfl
    next => rfl
  rw [hparse]
  by_cases hn : n < 2 ^ 64
  · rw [if_pos hn, if_pos hn, Except.ok.injEq, or_iff_left (Nat.not_le.mpr hn)]
    have hval : Function.update opts var (n % 2 ^ arch.ptrBits) = Function.update opts var n ↔
        n % 2 ^ arch.ptrBits = n := by
      refine ⟨fun h => ?_, fun h => by rw [h]⟩
      have := congrFun h var
      rwa [Function.update_self, Function.update_self] at this
    rw [hval]
    cases arch with
    | amd64 => exact iff_of_true (Nat.mod_eq_of_lt hn) (Or.inl rfl)
    | i386 =>
        have hlt : n % 2 ^ 32 < 2 ^ 32 := Nat.mod_lt _ (by decide)
        constructor
        · intro h
          have h' : n % 2 ^ 32 = n := h
          exact Or.inr (by omega)
        · rintro (h | h)
          · cases h
          · exact Nat.mod_eq_of_lt h
  · rw [if_neg hn, if_neg hn]
    exact iff_of_true rfl (Or.inr (Or.inr (Nat.le_of_not_lt hn)))

/-- All 64 bits of an option are kept on amd64. -/
theorem numeric_options_exact_amd64 :
    parseCmdline .amd64 (chars "a shv_opt=0x8000000000000001 b") (fun _ => 0) =
      .ok (Function.update (fun _ => 0) .shvOpt 0x8000000000000001) := by
  have hd : Numeral (chars "0x8000000000000001") 0x8000000000000001 := by
    have hdigits : DigitsOf 16 (chars "8000000000000001")
        [8, 0, 0, 0, 0, 0, 0, 0, 0, 0, 0, 0, 0, 0, 0, 1] := by
      unfold DigitsOf
      decide
    exact Numeral.hex (x := 120) (Or.inl rfl) hdigits (by decide)
  exact (numeric_options_exact_iff .amd64 ⟨chars "a shv_opt=0x8000000000000001 b", by decide⟩
    (fun _ => 0) (show (CmdVar.shvOpt, chars "shv_opt=") ∈ cmdlineVars from List.mem_cons_self) hd
    (by decide)).mpr (Or.inl rfl)

/-- On i386 `shv_opt=4294967296` sets the option to 0. -/
theorem numeric_options_truncated : Numeral (chars "4294967296") (2 ^ 32) ∧
    (words (chars "shv_opt=4294967296")).filter matching =
      [chars "shv_opt=" ++ chars "4294967296"] ∧
    (parseCmdline .i386 (chars "shv_opt=4294967296") fun _ => 0).map (· .shvOpt) = .ok 0 ∧
    parseCmdline .i386 (chars "shv_opt=4294967296") (fun _ => 0) ≠
      .ok (Function.update (fun _ => 0) .shvOpt (2 ^ 32)) := by
  have hdigits : DigitsOf 10 (chars "4294967296") [4, 2, 9, 4, 9, 6, 7, 2, 9, 6] := by
    unfold DigitsOf
    decide
  have hzero : (parseCmdline .i386 (chars "shv_opt=4294967296") fun _ => 0).map (· .shvOpt) =
      .ok 0 := by decide
  refine ⟨Numeral.decimal hdigits (by decide) (by decide), by decide, hzero, ?_⟩
  intro hfull
  rw [hfull] at hzero
  cases hzero

end Shv
