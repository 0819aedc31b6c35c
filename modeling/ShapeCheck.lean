import ShapeCheck.Session
import ShapeCheck.Proofs.Explanation
import ShapeCheck.Proofs.DeclaredKeys
import ShapeCheck.Proofs.UndeclaredKeys
import ShapeCheck.Proofs.Contexts
import ShapeCheck.Proofs.ExactShapes
import ShapeCheck.Proofs.Merging
import ShapeCheck.Proofs.Invariance
import ShapeCheck.Proofs.Queries
import ShapeCheck.Proofs.Uniform
import ShapeCheck.Proofs.OptionalShapes
import ShapeCheck.Proofs.Outlines
import ShapeCheck.Proofs.JsonTrees
import ShapeCheck.Proofs.Validation
import ShapeCheck.Proofs.JsonFaults
import ShapeCheck.Proofs.GuardRuns
import ShapeCheck.Proofs.Unions
import ShapeCheck.Proofs.OptionalOutcomes
import ShapeCheck.Proofs.Lines
import ShapeCheck.Proofs.Relaxing
import ShapeCheck.Proofs.SelfConformance
import ShapeCheck.Proofs.OptionalCalls
import ShapeCheck.Proofs.Joining
import ShapeCheck.Proofs.ObjectSchemas
import ShapeCheck.Proofs.FixedSequences
import ShapeCheck.Proofs.OutlineKeys
import ShapeCheck.Proofs.OwnAttributes
import ShapeCheck.Proofs.Lookups
