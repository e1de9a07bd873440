import SourceChunks.Grammar.Config

/-!
# Remembered profiles

A session answers requests for profiles under one configuration and remembers the profiles
it has made, by the name they were looked up under.  A refusal is not remembered: it is
made anew each time.
-/

namespace SourceChunks

/-- A configuration and the profiles made under it. -/
structure GrammarSession where
  config : Config
  made : Std.TreeMap String Profile := ∅

namespace GrammarSession

/-- The profile of a language, remembered or else made.  What was made is remembered. -/
def profile (session : GrammarSession) (language : Option String) :
    Except Failure Profile × GrammarSession :=
  let name := Text.normalName language
  match session.made[name]? with
  | some profile => (.ok profile, session)
  | none =>
    match session.config.namedProfile name with
    | .ok profile => (.ok profile, { session with made := session.made.insert name profile })
    | .error failure => (.error failure, session)

/-- The answers to a list of requests, in order. -/
def profiles (session : GrammarSession) : List (Option String) → List (Except Failure Profile)
  | [] => []
  | language :: rest =>
    let (answer, session) := session.profile language
    answer :: session.profiles rest

end GrammarSession

/-- A session under the configuration in which nothing was asked yet. -/
def Config.session (config : Config) : GrammarSession where
  config

end SourceChunks
