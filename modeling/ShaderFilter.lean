import ShaderFilter.Compile
import ShaderFilter.Main
import ShaderFilter.Proofs.Grammar
import ShaderFilter.Proofs.LastWrite
import ShaderFilter.Proofs.Refusal
import ShaderFilter.Proofs.Source
import ShaderFilter.Proofs.Resolution
import ShaderFilter.Proofs.Textures
import ShaderFilter.Proofs.FloatBounds
import ShaderFilter.Proofs.Endings
import ShaderFilter.Proofs.Prefixes
import ShaderFilter.Proofs.Interference
import ShaderFilter.Proofs.Commuting
import ShaderFilter.Proofs.Declarations
import ShaderFilter.Proofs.Stripping
import ShaderFilter.Proofs.FilterFile
import ShaderFilter.Proofs.Number.Digits
import ShaderFilter.Proofs.Number.Interval
import ShaderFilter.Proofs.Number.Notation
import ShaderFilter.Proofs.Document
import ShaderFilter.Proofs.Export
import ShaderFilter.Proofs.Keys
import ShaderFilter.Proofs.Saturation
import ShaderFilter.Proofs.Repetition
import ShaderFilter.Proofs.Faults
import ShaderFilter.Proofs.LetterCase
import ShaderFilter.Proofs.Rounds
import ShaderFilter.Proofs.Files.PathOrder
import ShaderFilter.Proofs.Files.Trees
import ShaderFilter.Proofs.Discovery
import ShaderFilter.Proofs.KeyWords
import ShaderFilter.Proofs.IntegerFields
import ShaderFilter.Proofs.Arguments
import ShaderFilter.Proofs.Toml.Writing
import ShaderFilter.Proofs.Configuration
import ShaderFilter.Proofs.Pattern.Grammar
import ShaderFilter.Proofs.Log.Filter
import ShaderFilter.Proofs.Trace
import ShaderFilter.Proofs.FileRuns
