import Mathlib.Data.String.Basic

/-!
# The effective configuration

The settings that remain once the configuration files and the command line are merged, as far as
the analysis of single files reads them.
-/

namespace Reposcout

/-- The analyzers that run. -/
structure Enabled where
  tokens : Bool
  complexity : Bool
  imports : Bool
  markers : Bool
  deriving DecidableEq

inductive HealthScope where
  | source
  | all
  deriving DecidableEq

/-- A format that is no source but may be added to the health corpus, in the declared order. -/
inductive HealthInclude where
  | html
  | css
  | scss
  | json
  | yaml
  | toml
  | markdown
  | xml
  | text
  | godotScene
  | godotResource
  | godotProject
  deriving DecidableEq

def HealthInclude.languageName : HealthInclude → String
  | html => "HTML"
  | css => "CSS"
  | scss => "SCSS"
  | json => "JSON"
  | yaml => "YAML"
  | toml => "TOML"
  | markdown => "Markdown"
  | xml => "XML"
  | text => "Text"
  | godotScene => "Godot Scene"
  | godotResource => "Godot Resource"
  | godotProject => "Godot Project"

/-- The first-class languages. -/
inductive SourceLanguage where
  | rust
  | python
  | javaScript
  | typeScript
  | tsx
  | go
  | php
  | cSharp
  | gdScript
  | gdShader
  | godotResource
  deriving DecidableEq

/-- A recognized format. -/
structure LangInfo where
  name : String
  firstClass : Option SourceLanguage

def sourceLanguageNames : List String :=
  ["GDScript", "Godot Shader", "Rust", "Python", "JavaScript", "TypeScript", "TSX", "Go", "PHP",
    "C", "C++", "C/C++ Header", "C#", "Java", "Kotlin", "Swift", "Ruby", "Shell", "Scala",
    "Haskell", "Lua", "SQL", "Dockerfile", "Makefile"]

def LangInfo.isSource (info : LangInfo) : Bool := info.name ∈ sourceLanguageNames

/-- The languages without a grammar whose control flow is measured. -/
def codeLanguageNames : List String :=
  ["C", "C++", "C/C++ Header", "C#", "Java", "Kotlin", "Swift", "Ruby", "Shell", "Scala",
    "Haskell", "Lua", "SQL"]

def LangInfo.isCode (info : LangInfo) : Bool :=
  info.firstClass.any (· ≠ .godotResource) || info.name ∈ codeLanguageNames

structure AnalysisConfig where
  encoding : String
  useCache : Bool
  enabled : Enabled
  markers : List String
  healthScope : HealthScope
  healthIncludes : List HealthInclude
  healthExcludes : List String

end Reposcout
