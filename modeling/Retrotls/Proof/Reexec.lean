import Retrotls.Proof.Args
import Retrotls.Proof.Effects

/-!
# The command line of the child

* `spawned`: only a start in the background spawns, and the child gets the arguments
  without `--foreground` and `-f`, with a `--foreground` at their end.
* `parse_child`: what the child parses them to.
* `reexec_iff`: **the child is a start in the foreground** exactly when the command line
  has the `start` subcommand and no `--`.
-/

namespace Retrotls.Run

open Args

variable {env : Env} {cli : Cli} {files : Path → Entry} {args : List Str}

/-- **What is spawned.** -/
theorem spawned {child : List Str} (h : .spawn child ∈ effects env cli files) :
    child = childArgs env ∧ Background cli := by
  let P : Effect → Prop := fun e => ∀ args, e = .spawn args → args = childArgs env ∧ Background cli
  have hserving : ∀ e : Effect, e.isServing = true → P e := by
    rintro e he args rfl
    cases he
  have hall : LogAll P (run env cli ⟨files, []⟩).2 := by
    refine run_logAll hserving ?_ (fun e he => by cases he) ?_ ?_ ?_
    · rintro pid - args ⟨⟩
    · rintro line args ⟨⟩
    · rintro hb args ⟨⟩
      exact ⟨rfl, hb⟩
    · rintro - pid - args ⟨⟩
  exact hall _ h child rfl

/-- The argument that `daemonize` adds. -/
def foregroundArg : Str := "--foreground".toList

/-- An argument with a dash that starts no option is none of the options. -/
theorem not_mem_reads {o : Options Arg} {arg : Str} {xs : Given} (h : o.Reads args xs)
    (hp : isPlain arg = false) (hl : o.lead arg = none) : arg ∉ args := by
  intro hm
  rcases Options.mem_reads h hm with hplain | ⟨i, v, v', hlead, -⟩
  · rw [hp] at hplain
    cases hplain
  · rw [hl] at hlead
    cases hlead

theorem has_of_mem {xs : Given} {arg : Arg} {v : Option Str} (h : (arg, v) ∈ xs) :
    xs.has arg = true := by
  unfold Given.has
  exact List.any_eq_true.2 ⟨_, h, by simp⟩

/-- Where a subcommand reads `--foreground`, it is `start`. -/
theorem foreground_of_lead {name : Str} {opts : Options Arg} {command : Given → Commands} {arg : Str}
    {i : Arg} {v : Option Str} (hname : subcommand name = some (opts, command))
    (harg : arg = foregroundArg ∨ arg = "-f".toList) (hlead : opts.lead arg = some (i, v)) :
    i = .foreground ∧ ∀ sub, command sub = .start (sub.has .foreground) := by
  have hglobal : globals.lead arg = none := by rcases harg with rfl | rfl <;> decide
  rcases subcommand_some hname with rfl | rfl | rfl
  · cases hname
    refine ⟨?_, fun _ => rfl⟩
    rcases harg with rfl | rfl
    · exact (Prod.mk.inj (Option.some.inj hlead)).1.symm
    · cases hlead
  · cases hname
    rw [hglobal] at hlead
    cases hlead
  · cases hname
    rw [hglobal] at hlead
    cases hlead

/-- **`daemonize` drops nothing** from the command line of a start in the background. -/
theorem not_dropped (h : CommandLine args cli) (hb : Background cli) {arg : Str}
    (harg : arg = foregroundArg ∨ arg = "-f".toList) : arg ∉ args := by
  have hplain : isPlain arg = false := by rcases harg with rfl | rfl <;> decide
  have hglobal : globals.lead arg = none := by rcases harg with rfl | rfl <;> decide
  have hescape : ∀ e, Escape e → arg ∉ e := by
    rintro e (rfl | rfl)
    · exact nofun
    · rcases harg with rfl | rfl <;> decide
  cases h with
  | bare h _ _ he =>
    intro hm
    rcases List.mem_append.1 hm with hm | hm
    · exact not_mem_reads h hplain hglobal hm
    · exact hescape _ he hm
  | command hname h ho h' ho' he =>
    rename_i name opts command w w' e top sub
    have hne : arg ≠ name := by
      rcases subcommand_some hname with rfl | rfl | rfl
      all_goals rcases harg with rfl | rfl <;> decide
    have hsub : arg ∉ w' := by
      intro hm
      rcases Options.mem_reads h' hm with hp | ⟨i, v, v', hlead, hi⟩
      · rw [hplain] at hp
        cases hp
      · -- the option is `--foreground`, and the start is not in the background
        obtain ⟨rfl, hstart⟩ := foreground_of_lead hname harg hlead
        have hhas := has_of_mem hi
        rcases hb.2 with hc | hc
        · cases hc
        · have hcommand : command sub = .start false := Option.some.inj hc
          rw [hstart, hhas] at hcommand
          cases hcommand
    intro hm
    rcases List.mem_append.1 hm with hm | hm
    · exact not_mem_reads h hplain hglobal hm
    · rcases List.mem_cons.1 hm with hm | hm
      · exact hne hm
      · rcases List.mem_append.1 hm with hm | hm
        · exact hsub hm
        · exact hescape _ he hm

theorem childArgs_eq (h : CommandLine env.args cli) (hb : Background cli) :
    childArgs env = env.args ++ [foregroundArg] := by
  have hkeep : env.args.filter (fun arg => arg != "--foreground".toList && arg != "-f".toList) =
      env.args := by
    refine List.filter_eq_self.2 fun arg hm => ?_
    have h1 : arg ≠ "--foreground".toList := by
      rintro rfl
      exact not_dropped h hb (Or.inl rfl) hm
    have h2 : arg ≠ "-f".toList := by
      rintro rfl
      exact not_dropped h hb (Or.inr rfl) hm
    rw [bne_iff_ne.2 h1, bne_iff_ne.2 h2]
    rfl
  rw [childArgs, hkeep]
  rfl

/-! ## What the child parses -/

theorem value_append_foreground (xs : Given) {arg : Arg} (h : arg ≠ .foreground) :
    Given.value (xs ++ [(.foreground, none)]) arg = xs.value arg := by
  unfold Given.value
  rw [List.find?_append]
  cases xs.find? fun x => x.1 = arg with
  | none => simp [Ne.symm h]
  | some x => rfl

theorem has_append_foreground (xs : Given) (arg : Arg) :
    Given.has (xs ++ [(.foreground, none)]) arg = (xs.has arg || arg = .foreground) := by
  unfold Given.has
  rw [List.any_append]
  simp [eq_comm]

/-- The command line with `--foreground` at its end. -/
theorem cliOf_foreground (top sub : Given) :
    cliOf (some (.start true)) top (sub ++ [(.foreground, none)]) =
      { cliOf (some (.start false)) top sub with command := some (.start true) } := by
  unfold cliOf
  rw [value_append_foreground _ (by decide), value_append_foreground _ (by decide),
    has_append_foreground]
  simp

/-- The last argument is read as the option of `start`. -/
theorem reads_foreground {w : List Str} {sub : Given} (h : startOptions.Reads w sub) :
    startOptions.Reads (w ++ [foregroundArg]) (sub ++ [(.foreground, none)]) := by
  have hone : startOptions.Occurs [foregroundArg] (.foreground, none) :=
    .flag (.long (by decide)) rfl rfl
  exact Options.reads_append h (.cons hone .nil)

theorem once_foreground {sub : Given} (h : sub.Once) (hno : sub.has .foreground = false) :
    Given.Once (sub ++ [(.foreground, none)]) := by
  unfold Given.Once
  rw [List.map_append, List.nodup_append]
  refine ⟨h, List.nodup_singleton _, ?_⟩
  rintro a ha b hb rfl
  obtain ⟨x, hx, rfl⟩ := List.mem_map.1 ha
  have hfg : x.1 = .foreground := by simpa using hb
  have hhas : sub.has x.1 = true := has_of_mem hx
  rw [hfg, hno] at hhas
  cases hhas

/-- What follows the options and is no option, no subcommand and no end is not parsed. -/
theorem parseRest_none {top : Given} {arg : Str} {rest : List Str} (hc : subcommand arg = none)
    (he : ¬ Escape (arg :: rest)) : parseRest top (arg :: rest) = none := by
  unfold parseRest
  rw [if_neg he]
  simp only [hc]

/-- **A command line without a subcommand** does not take `--foreground`. -/
theorem parse_child_bare {w e : List Str} {top : Given} (h : globals.Reads w top) (ho : top.Once)
    (he : Escape e) : parseArgs (w ++ e ++ [foregroundArg]) = none := by
  have hforeground : globals.Stops [foregroundArg] := stops_cons (by decide) _
  have hdash : globals.Stops ["--".toList, foregroundArg] := stops_cons (by decide) _
  rw [List.append_assoc]
  rcases he with rfl | rfl
  · rw [List.nil_append, parseArgs_top h ho hforeground]
    exact parseRest_none (by decide) (by decide)
  · rw [List.singleton_append, parseArgs_top h ho hdash]
    exact parseRest_none (by decide) (by decide)

/-- The arguments up to the end hold no `--`. -/
theorem dash_mem_iff {o : Options Arg} {w e : List Str} {xs : Given} (h : o.Reads w xs)
    (hl : o.lead "--".toList = none) (he : Escape e) : "--".toList ∈ w ++ e ↔ e = ["--".toList] := by
  have hno := not_mem_reads h (by decide) hl
  rw [List.mem_append, or_iff_right hno]
  rcases he with rfl | rfl <;> simp

/-- **A start** takes `--foreground`, where no `--` comes before it. -/
theorem parse_child_start {w w' e : List Str} {top sub : Given} (h : globals.Reads w top)
    (ho : top.Once) (h' : startOptions.Reads w' sub) (ho' : sub.Once) (he : Escape e)
    (hno : sub.has .foreground = false) :
    parseArgs (w ++ "start".toList :: (w' ++ e) ++ [foregroundArg]) =
      if e = [] then some { cliOf (some (.start false)) top sub with command := some (.start true) }
      else none := by
  have hname : subcommand "start".toList =
      some (startOptions, fun xs => .start (xs.has .foreground)) := rfl
  rw [List.append_assoc, List.cons_append, parseArgs_top h ho (stops_cons (by decide) _)]
  rcases he with rfl | rfl
  · have hhas : Given.has (sub ++ [(.foreground, none)]) .foreground = true := by
      rw [has_append_foreground]
      simp
    have hend : startOptions.Stops [] := nofun
    rw [List.append_nil, ← List.append_nil (w' ++ [foregroundArg]),
      parseRest_command hname (reads_foreground h') hend,
      if_pos ⟨once_foreground ho' hno, Or.inl rfl⟩, hhas, cliOf_foreground, if_pos rfl]
  · have hstop : startOptions.Stops ("--".toList :: [foregroundArg]) := stops_cons (by decide) _
    rw [List.append_assoc, List.singleton_append, parseRest_command hname h' hstop, if_neg, if_neg (by simp)]
    rintro ⟨-, h⟩
    exact absurd h (by decide)

/-- **What the child parses**: a start in the foreground, for a start without a `--`. -/
theorem parse_child (h : CommandLine args cli) (hb : Background cli) :
    parseArgs (args ++ [foregroundArg]) =
      if cli.command = some (.start false) ∧ "--".toList ∉ args then
        some { cli with command := some (.start true) }
      else none := by
  cases h with
  | bare h ho hne he =>
    rw [parse_child_bare h ho he, if_neg]
    rintro ⟨hc, -⟩
    cases hc
  | command hname h ho h' ho' he =>
    rename_i name opts command w w' e top sub
    rcases subcommand_some hname with rfl | rfl | rfl
    · cases hname
      have hno : sub.has .foreground = false := by
        rcases hb.2 with hc | hc
        · cases hc
        · exact Commands.start.inj (Option.some.inj hc)
      have hdash : "--".toList ∉ w ++ "start".toList :: (w' ++ e) ↔ e = [] := by
        have hw : "--".toList ∉ w := not_mem_reads h (by decide) (by decide)
        rw [List.mem_append, or_iff_right hw, List.mem_cons,
          or_iff_right (show "--".toList ≠ "start".toList by decide), dash_mem_iff h' (by decide) he]
        rcases he with rfl | rfl <;> simp
      rw [parse_child_start h ho h' ho' he hno]
      simp only [hdash, hno, cliOf, true_and]
    · cases hname
      rcases hb.2 with hc | hc <;> cases hc
    · cases hname
      rcases hb.2 with hc | hc <;> cases hc

/-- **The child is a start in the foreground** with the same configuration and log level:
exactly when the command line has the `start` subcommand, and no `--`. -/
theorem reexec_iff {clap : List Str → Option Cli} (hclap : Documented clap)
    (hcli : clap env.args = some cli) {child : List Str}
    (hspawn : .spawn child ∈ effects env cli files) :
    clap child = some ⟨some (.start true), cli.config, false, cli.logLevel⟩ ↔
      cli.command = some (.start false) ∧ "--".toList ∉ env.args := by
  obtain ⟨rfl, hb⟩ := spawned hspawn
  have hline := (hclap.parse _ _).1 hcli
  have hchild := parse_child hline hb
  rw [← childArgs_eq hline hb] at hchild
  rw [hclap.parse, ← parseArgs_iff, hchild]
  constructor
  · intro h
    by_contra hno
    rw [if_neg hno] at h
    cases h
  · intro h
    rw [if_pos h, ← hb.1]

/-- `retrotls --log-level debug start`. -/
def startEnv : Env := { calm with args := ["--log-level".toList, "debug".toList, "start".toList] }

def startLine : Cli := ⟨some (.start false), none, false, some "debug".toList⟩

theorem reexec_iff_start :
    parseArgs (startEnv.args ++ [foregroundArg]) =
        some ⟨some (.start true), startLine.config, false, startLine.logLevel⟩ ↔
      startLine.command = some (.start false) ∧ "--".toList ∉ startEnv.args := by
  have hcli : parseArgs startEnv.args = some startLine := by decide +kernel
  have hspawn : .spawn (startEnv.args ++ [foregroundArg]) ∈
      effects startEnv startLine noConfig.files := by decide +kernel
  exact reexec_iff parseArgs_documented hcli hspawn

/-- `retrotls --config config.yaml`. -/
def bareEnv : Env := { calm with args := ["--config".toList, "config.yaml".toList] }

def bareLine : Cli := ⟨none, some ["config.yaml".toList], false, none⟩

/-- **The child of a start without its subcommand does not parse its arguments.** -/
theorem bare_child_fails : parseArgs bareEnv.args = some bareLine ∧
    .spawn (bareEnv.args ++ [foregroundArg]) ∈ effects bareEnv bareLine noConfig.files ∧
      parseArgs (bareEnv.args ++ [foregroundArg]) = none := by
  refine ⟨by decide +kernel, by decide +kernel, by decide +kernel⟩

/-- After a `--`, the added argument is positional. -/
example : parseArgs (["start".toList, "--".toList] ++ [foregroundArg]) = none := by decide +kernel

end Retrotls.Run
