import Pazuzu.Bridge
import Pazuzu.Quoting

/-! What becomes of a bridged service on its way to the host. `ssh` is not part of
the repository, and only what its manual says of these options is used of it. -/
namespace Pazuzu.Bridge

open Posix

/-- The destination that `ssh` runs a command on, and the command, for its
arguments. Nothing where it refuses them, or runs none. -/
abbrev Ssh := List Word → Option (Word × Word)

/-- The settings of a service channel. They are about the connection only. -/
def channelSettings : List Word :=
  ["ControlMaster=no", "ControlPersist=no", "ProxyCommand=/usr/bin/false"].map String.toList

/-- Options of a channel, and behind them the destination and the command. -/
inductive ChannelWords : List Word → Prop
  | command (host command : Word) : ChannelWords [host, command]
  | terminal {rest : List Word} : ChannelWords rest → ChannelWords ("-T".toList :: rest)
  | socket (path : Word) {rest : List Word} : ChannelWords rest → ChannelWords ("-S".toList :: path :: rest)
  | setting {setting : Word} {rest : List Word} : setting ∈ channelSettings → ChannelWords rest →
      ChannelWords ("-o".toList :: setting :: rest)

/-- Options stand in front of the destination, and those of a channel do not change
what is run there. A host that is accepted is no option, is one by the rules of
`ssh`, and its configuration has no command of its own. -/
structure Documented (ssh : Ssh) (accepts : Word → Prop) : Prop where
  terminal : ∀ rest, ChannelWords rest → ssh ("-T".toList :: rest) = ssh rest
  socket : ∀ path rest, ChannelWords rest → ssh ("-S".toList :: path :: rest) = ssh rest
  settings : ∀ setting ∈ channelSettings, ∀ rest, ChannelWords rest → ssh ("-o".toList :: setting :: rest) = ssh rest
  command : ∀ host command, accepts host → ssh [host, command] = some (host, command)

theorem bare_words : ∀ word ∈ ["exec".toList, "sh".toList, "-c".toList], word ≠ [] ∧ ∀ c ∈ word, isBare c = true := by
  simp only [List.forall_mem_cons, List.not_mem_nil, false_imp_iff, implies_true, and_true]
  exact ⟨⟨by decide, List.all_eq_true.mp rfl⟩, ⟨by decide, List.all_eq_true.mp rfl⟩, by decide, List.all_eq_true.mp rfl⟩

/-- The remote shell takes the service's command apart into the words it was made
of, with the wrapper as one of them. -/
theorem service_words (environment : Environment) (script first : Word) (others : List Word) :
    readCommands environment
        ("exec sh -c ".toList ++ shellQuote script ++ " pazuzu-bridge ".toList ++ shellJoin (first :: others)) =
      some [["exec".toList, "sh".toList, "-c".toList, script, "pazuzu-bridge".toList, first] ++ others] := by
  obtain ⟨fixedMarks, hFixed⟩ := SpellsAll.bare "exec".toList ["sh".toList, "-c".toList] bare_words
  obtain ⟨scriptMarks, hScript⟩ := spells_shellQuote script
  obtain ⟨nameMarks, hName⟩ : ∃ marks, Spells "pazuzu-bridge".toList "pazuzu-bridge".toList marks :=
    Spells.bareAll (by decide) (List.all_eq_true.mp rfl)
  obtain ⟨restMarks, hRest⟩ := spellsAll_shellJoin first others
  have hAll := ((hFixed.append hScript.one).append hName.one).append hRest
  have hText : "exec sh -c ".toList ++ shellQuote script ++ " pazuzu-bridge ".toList ++ shellJoin (first :: others) =
      (([' '].intercalate ["exec".toList, "sh".toList, "-c".toList] ++ ' ' :: shellQuote script) ++
        ' ' :: "pazuzu-bridge".toList) ++ ' ' :: shellJoin (first :: others) := by
    have hFront : "exec sh -c ".toList = [' '].intercalate ["exec".toList, "sh".toList, "-c".toList] ++ [' '] := by decide
    have hBack : " pazuzu-bridge ".toList = ' ' :: "pazuzu-bridge".toList ++ [' '] := by decide
    rw [hFront, hBack]
    simp only [List.append_assoc, List.cons_append, List.nil_append]
  rw [hText, readCommands_last hAll (by decide)]
  rfl

section Sending

variable {ssh : Ssh} {accepts : Word → Prop} {request : Request} {argv : List String}

/-- Behind the options of a channel stand the destination and the command. -/
theorem Documented.channel (hSsh : Documented ssh accepts) {host : Word} (hHost : accepts host) (path command : Word) :
    ssh ("-T".toList :: "-S".toList :: path :: channelSettings.flatMap (["-o".toList, ·]) ++ [host, command]) =
      some (host, command) := by
  have hEach : ∀ settings, settings ⊆ channelSettings →
      ChannelWords (settings.flatMap (["-o".toList, ·]) ++ [host, command]) ∧
        ssh (settings.flatMap (["-o".toList, ·]) ++ [host, command]) = some (host, command) := by
    intro settings hSettings
    induction settings with
    | nil => exact ⟨.command host command, hSsh.command host command hHost⟩
    | cons setting others ih =>
        obtain ⟨hFirst, hOthers⟩ := List.cons_subset.mp hSettings
        obtain ⟨hWords, hSame⟩ := ih hOthers
        rw [List.flatMap_cons, List.append_assoc]
        exact ⟨.setting hFirst hWords, (hSsh.settings setting hFirst _ hWords).trans hSame⟩
  obtain ⟨hWords, hSame⟩ := hEach _ (List.Subset.refl _)
  exact (hSsh.terminal _ (.socket path hWords)).trans ((hSsh.socket path _ hWords).trans hSame)

/-- A service that is accepted is run on the host as it was asked for: `ssh` hands
its command on, and the shell there finds the wrapper and the words of the service
in it, whatever characters they have. -/
theorem service_read (hSsh : Documented ssh accepts) (hHost : accepts request.settings.host.toList)
    (h : bridgeSessionArgv request = .ok argv) :
    ∃ command, ssh (argv.map String.toList).tail = some (request.settings.host.toList, command) ∧
      ∀ environment, readCommands environment command =
        some [["exec".toList, "sh".toList, "-c".toList, (lifecycle request.remotePort).toList, "pazuzu-bridge".toList] ++
          request.remoteCommand.map String.toList] := by
  simp only [bridgeSessionArgv, bind, Except.bind] at h
  split at h
  · cases h
  · split at h
    · cases h
    · split at h
      · cases h
      · next hCommand =>
          cases h
          refine ⟨_, hSsh.channel hHost request.settings.controlPath.toList _, fun environment => ?_⟩
          obtain ⟨first, others, hWords⟩ := List.exists_cons_of_ne_nil fun hNone => hCommand (Or.inl hNone)
          have hService := service_words environment (lifecycle request.remotePort).toList first.toList
            (others.map String.toList)
          simp only [String.toList_append, String.toList_ofList, hWords, List.map_cons]
          exact hService

/-- A server with a quote in its name. -/
def quoted : Request :=
  ⟨{ host := "h", controlPath := "/c" }, "127.0.0.1", 8080, "127.0.0.1", 9090, ["serve", "it's"]⟩

/-- An `ssh` for these options that takes hosts of letters and digits. -/
def plainSsh : Ssh
  | [] => none
  | first :: rest =>
      if first = "-T".toList then plainSsh rest
      else if first = "-S".toList ∨ first = "-o".toList then
        match rest with
        | [] => none
        | _ :: rest => plainSsh rest
      else if first.all Char.isAlphanum then rest.head?.map ((first, ·)) else none

theorem documented_plainSsh : Documented plainSsh fun host => host.all Char.isAlphanum = true where
  terminal rest _ := by
    rw [plainSsh.eq_def]
    exact if_pos rfl
  socket _ _ _ := rfl
  settings _ _ _ _ := rfl
  command host command hHost := by
    have hOther : ∀ word : Word, word.all Char.isAlphanum = false → host ≠ word := by
      rintro word hWord rfl
      rw [hHost] at hWord
      cases hWord
    rw [plainSsh, if_neg (hOther _ rfl), if_neg (not_or.mpr ⟨hOther _ rfl, hOther _ rfl⟩), if_pos hHost]
    rfl

theorem service_read_quoted : ∃ argv, bridgeSessionArgv quoted = .ok argv ∧
    ∃ command, plainSsh (argv.map String.toList).tail = some ("h".toList, command) ∧
      ∀ environment, readCommands environment command =
        some [["exec".toList, "sh".toList, "-c".toList, (lifecycle 9090).toList, "pazuzu-bridge".toList] ++
          ["serve".toList, "it's".toList]] :=
  have hArgv : bridgeSessionArgv quoted = .ok _ := rfl
  ⟨_, hArgv, service_read documented_plainSsh rfl hArgv⟩

end Sending
end Pazuzu.Bridge
