/-
  ArtifactPatch.Command.Help
  ──────────────────────────
  **HELP.**

  A page of help says in one line what something does and in one how to call
  it, and then lists, section by section, what may be written and what it
  means.  In a section all meanings stand in one column.
-/
import ArtifactPatch.Command.Args
import ArtifactPatch.Command.Style

namespace ArtifactPatch

/-! ## §1. Pages. -/

/-- Something that may be written, and what it means. -/
structure HelpRow where
  form : String
  meaning : String
  deriving Repr, DecidableEq

/-- A page of help. -/
structure HelpPage where
  about : String
  usage : String
  /-- Titles with their rows. -/
  sections : List (String × List HelpRow)
  deriving Repr, DecidableEq

namespace HelpRow

/-- A row whose forms take up a width. -/
def render (width : Nat) (r : HelpRow) : String :=
  "  " ++ padRight width r.form ++ "  " ++ r.meaning ++ "\n"

/-- Width of the longest form. -/
def widest (rows : List HelpRow) : Nat :=
  (rows.map (·.form.length)).foldl Nat.max 0

end HelpRow

namespace HelpPage

/-- The line that says how to call something. -/
def usageLine (p : HelpPage) : String :=
  "Usage: " ++ p.usage ++ "\n"

/-- A section; an empty one is left out. -/
def renderSection (title : String) (rows : List HelpRow) : String :=
  if rows.isEmpty then ""
  else "\n" ++ title ++ ":\n" ++ String.join (rows.map (·.render (HelpRow.widest rows)))

/-- The page as text. -/
def render (p : HelpPage) : String :=
  p.about ++ "\n\n" ++ p.usageLine
    ++ String.join (p.sections.map fun (title, rows) => renderSection title rows)

end HelpPage

/-! ## §2. Options. -/

/-- What an option means. -/
def OptionName.meaning : OptionName → String
  | .help => "Print help"
  | .version => "Print version"
  | .verbose => "Increase log verbosity (-v info, -vv debug); RUST_LOG overrides"
  | .profile => "Patch profile to use instead of the built-in one"
  | .packageDir => "Package directory (skips node_modules resolution)"
  | .dryRun => "Dry run - show what would be changed without modifying files"
  | .diff => "Show each rewritten site"
  | .ignoreVersion => "Patch even if the package version is outside the profile's range"
  | .keepBackup => "Leave the .bak files in place after restoring"
  | .defaultMs =>
      "Default hook timeout in milliseconds [default: "
        ++ toString WaitCondition.defaultMs ++ "]"

/-- What stands behind the name of an option: its value, or dots where it may
come again. -/
def OptionName.suffix : OptionName → String
  | .verbose => "..."
  | .profile => " <PROFILE>"
  | .packageDir => " <PACKAGE_DIR>"
  | .defaultMs => " <DEFAULT_MS>"
  | _ => ""

/-- An option with its short form, or with as many blanks. -/
def OptionForm.helpRow (f : OptionForm) : HelpRow where
  form :=
    (match f.short with
      | some c => "-" ++ c.toString ++ ", "
      | none => "    ") ++ "--" ++ f.long ++ f.name.suffix
  meaning := f.name.meaning

/-! ## §3. Commands. -/

/-- What a command does. -/
def CommandName.meaning : CommandName → String
  | .apply => "Back up, rewrite and verify the package's artifacts"
  | .restore => "Put the original artifacts back from their backups"
  | .verify => "Check that the artifacts carry the patched post-conditions"
  | .status => "Show artifact hashes, backups and pending rewrites"
  | .list => "Show the active profile and any profiles under ./patches"
  | .simulate => "Show the hook wait condition before and after the rewrite"

/-- What the command that asks for help does. -/
def helpMeaning : String :=
  "Print this message or the help of the given subcommand(s)"

/-- Arguments of a command that are no options. -/
def CommandName.operands : CommandName → List HelpRow
  | .simulate => [⟨"[TIMEOUT]...", "Timeout values: seconds, `null` or `absent`"⟩]
  | _ => []

/-- The page on something. -/
def HelpTopic.page : HelpTopic → HelpPage
  | .program =>
      { about := "Patch and restore minified SDK artifacts"
        usage := "sdk-patcher [OPTIONS] <COMMAND>"
        sections :=
          [("Commands",
              CommandName.all.map (fun c => ⟨c.text, c.meaning⟩) ++ [⟨"help", helpMeaning⟩]),
            ("Options", OptionForm.leading.map OptionForm.helpRow)] }
  | .command c =>
      { about := c.meaning
        usage :=
          " ".intercalate (["sdk-patcher", c.text, "[OPTIONS]"] ++ c.operands.map HelpRow.form)
        sections :=
          [("Arguments", c.operands),
            ("Options", (OptionForm.ofCommand c).map OptionForm.helpRow)] }
  | .help =>
      { about := helpMeaning
        usage := "sdk-patcher help [COMMAND]..."
        sections := [("Arguments", [⟨"[COMMAND]...", "Print help for the subcommand(s)"⟩])] }

end ArtifactPatch
