import Retrotls.Spec.Args

/-!
# Parsing the command line

`parseArgs` reads the options, the subcommand, and its options.

* `parseArgs_iff`: **it parses exactly what the grammar derives**, so a command line has one
  meaning, and what is assumed of clap can be met.
-/

namespace Retrotls.Args

/-- Reads what follows the global options. -/
def parseRest (top : Given) (rest : List Str) : Option Cli :=
  if Escape rest then if top = [] then none else some (cliOf none top [])
  else
    match rest with
    | [] => none
    | name :: rest =>
      match subcommand name with
      | none => none
      | some (opts, command) =>
        match opts.readOptions rest with
        | none => none
        | some (sub, e) =>
          if Given.Once sub ∧ Escape e then some (cliOf (some (command sub)) top sub) else none

/-- Reads a command line. -/
def parseArgs (args : List Str) : Option Cli :=
  match globals.readOptions args with
  | none => none
  | some (top, rest) => if Given.Once top then parseRest top rest else none

variable {args rest e : List Str} {top sub : Given} {cli : Cli} {name : Str} {opts : Options Arg}
  {command : Given → Commands}

/-- The subcommands there are. -/
theorem subcommand_some (h : subcommand name = some (opts, command)) :
    name = "start".toList ∨ name = "stop".toList ∨ name = "version".toList := by
  unfold subcommand at h
  split at h
  · exact Or.inl ‹_›
  · split at h
    · exact Or.inr (Or.inl ‹_›)
    · split at h
      · exact Or.inr (Or.inr ‹_›)
      · cases h

theorem stops_cons {o : Options Arg} {arg : Str} (h : o.lead arg = none) (rest : List Str) :
    o.Stops (arg :: rest) := by
  rintro _ ⟨rfl⟩
  exact h

theorem stops_escape {o : Options Arg} (h : o.lead "--".toList = none) (he : Escape e) :
    o.Stops e := by
  rcases he with rfl | rfl
  · exact nofun
  · exact stops_cons h _

/-- A subcommand is no option, and no end of a command line. -/
theorem subcommand_lead (h : subcommand name = some (opts, command)) :
    globals.lead name = none ∧ opts.lead "--".toList = none ∧ ∀ rest, ¬ Escape (name :: rest) := by
  have hescape : name ≠ "--".toList → ∀ rest, ¬ Escape (name :: rest) := by
    rintro hne rest (he | he)
    · cases he
    · exact hne (List.cons.inj he).1
  rcases subcommand_some h with rfl | rfl | rfl
  all_goals
    cases h
    exact ⟨by decide, by decide, hescape (by decide)⟩

/-- After the global options comes the rest. -/
theorem parseArgs_top (h : globals.Reads args top) (ho : top.Once) (hs : globals.Stops rest) :
    parseArgs (args ++ rest) = parseRest top rest := by
  unfold parseArgs
  rw [Options.readOptions_complete h hs]
  exact if_pos ho

/-- After the subcommand come its options. -/
theorem parseRest_command (hname : subcommand name = some (opts, command))
    (h : opts.Reads args sub) (hs : opts.Stops rest) : parseRest top (name :: (args ++ rest)) =
      if sub.Once ∧ Escape rest then some (cliOf (some (command sub)) top sub) else none := by
  have hescape := (subcommand_lead hname).2.2 (args ++ rest)
  unfold parseRest
  simp only [if_neg hescape, hname, Options.readOptions_complete h hs]

/-- **What the grammar derives is parsed.** -/
theorem parseArgs_complete (h : CommandLine args cli) : parseArgs args = some cli := by
  cases h with
  | bare h ho hne he =>
    rw [parseArgs_top h ho (stops_escape (by decide) he)]
    unfold parseRest
    rw [if_pos he, if_neg hne]
  | command hname h ho h' ho' he =>
    obtain ⟨hlead, hdash, -⟩ := subcommand_lead hname
    rw [parseArgs_top h ho (stops_cons hlead _), parseRest_command hname h' (stops_escape hdash he),
      if_pos ⟨ho', he⟩]

/-- **What is parsed is derived by the grammar.** -/
theorem parseArgs_sound (h : parseArgs args = some cli) : CommandLine args cli := by
  unfold parseArgs at h
  split at h
  · cases h
  · rename_i top rest hread
    obtain ⟨w, rfl, hw, hs⟩ := Options.readOptions_iff.1 hread
    split at h
    · rename_i ho
      unfold parseRest at h
      split at h
      · rename_i he
        split at h
        · cases h
        · rename_i hne
          cases h
          exact .bare hw ho hne he
      · split at h
        · cases h
        · split at h
          · cases h
          · rename_i hname
            split at h
            · cases h
            · rename_i hread'
              obtain ⟨w', rfl, hw', hs'⟩ := Options.readOptions_iff.1 hread'
              split at h
              · rename_i hok
                cases h
                exact .command hname hw ho hw' hok.1 hok.2
              · cases h
    · cases h

/-- **Parsing and the grammar agree.** -/
theorem parseArgs_iff : parseArgs args = some cli ↔ CommandLine args cli :=
  ⟨parseArgs_sound, parseArgs_complete⟩

/-- **What is assumed of clap can be met.** -/
theorem parseArgs_documented : Documented parseArgs := ⟨fun _ _ => parseArgs_iff⟩

end Retrotls.Args
