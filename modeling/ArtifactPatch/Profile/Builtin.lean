/-
  ArtifactPatch.Profile.Builtin
  ─────────────────────────────
  **THE BUILT-IN PROFILE.**

  A null timeout on a hook matcher is to mean "wait indefinitely".  Unpatched,
  the bundled executor takes null for any other falsy value and falls back to
  the default timeout.  The built-in profile gives the executor a branch for
  null, at every place that makes a timeout signal, and widens the type in the
  declarations.
-/
import ArtifactPatch.Profile.Basic

namespace ArtifactPatch.Profile

/-- The executor makes the signal of a timeout. -/
def hookTimeoutPattern : String :=
  "let $T=$H.timeout?$H.timeout*1000:$D,\x7bsignal:$S,cleanup:$C\x7d=$K(AbortSignal.timeout($T),$P)"

/-- The executor makes the signal of a timeout only where there is one. -/
def hookTimeoutTemplate : String :=
  "let $T=$H.timeout===null?null:$H.timeout?$H.timeout*1000:$D,\x7bsignal:$S,cleanup:$C\x7d="
    ++ "$T===null?$K($P):$K(AbortSignal.timeout($T),$P)"

/-- The declaration of a matcher's timeout. -/
def matcherTypePattern : String :=
  "    /** Timeout in seconds for all hooks in this matcher */\n    timeout?: number;"

/-- The declaration of a matcher's timeout that may be null. -/
def matcherTypeTemplate : String :=
  "    /**\n     * Timeout in seconds for all hooks in this matcher.\n"
    ++ "     * - `undefined`: use the default (60 seconds)\n"
    ++ "     * - `null`: wait indefinitely, never time out\n"
    ++ "     * - `number`: explicit timeout in seconds\n"
    ++ "     */\n    timeout?: number | null;"

/-- The built-in profile. -/
def builtin : Profile where
  name := "hook-timeout-null"
  description := some "Let `timeout: null` on a hook matcher disable the hook timeout"
  package := "@anthropic-ai/claude-agent-sdk"
  versionRange := none
  artifacts := [⟨"executable", "cli.js"⟩, ⟨"type-declarations", "sdk.d.ts"⟩]
  rules := [
    { id := "hook-timeout-null-sentinel"
      artifact := "executable"
      description := some "Short-circuit the timeout signal when a hook's timeout is null"
      pattern := hookTimeoutPattern
      template := hookTimeoutTemplate
      min := 4
      max := none },
    { id := "hook-matcher-timeout-type"
      artifact := "type-declarations"
      description := some "Widen HookCallbackMatcher.timeout to accept null"
      pattern := matcherTypePattern
      template := matcherTypeTemplate
      min := 1
      max := some 1 }]
  expectations := [
    ⟨"executable", .marker ".timeout===null?null:" 4⟩,
    ⟨"executable", .shape "$T===null?$K($P):$K(AbortSignal.timeout($T),$P)" 4⟩,
    ⟨"type-declarations", .literal "timeout?: number | null;"⟩]

end ArtifactPatch.Profile
