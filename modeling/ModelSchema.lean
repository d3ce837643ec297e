import ModelSchema.Api.Kinds
import ModelSchema.Document.Draft
import ModelSchema.Main
import ModelSchema.Proofs.Arrangement
import ModelSchema.Proofs.ClearedResources
import ModelSchema.Proofs.ConsoleValues
import ModelSchema.Proofs.CorrectedText
import ModelSchema.Proofs.DeclaredRequirements
import ModelSchema.Proofs.DeclaredShapes
import ModelSchema.Proofs.Decoding
import ModelSchema.Proofs.Enumeration
import ModelSchema.Proofs.Injectivity
import ModelSchema.Proofs.Inlining
import ModelSchema.Proofs.JavaClasses
import ModelSchema.Proofs.ListItems
import ModelSchema.Proofs.ManualTypes
import ModelSchema.Proofs.MapKeys
import ModelSchema.Proofs.PropertyNames
import ModelSchema.Proofs.Reordering
import ModelSchema.Proofs.ResourceKeys
import ModelSchema.Proofs.WordCase
