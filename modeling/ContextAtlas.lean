import ContextAtlas.Main
import ContextAtlas.Model.Decoding
import ContextAtlas.Query
import ContextAtlas.Proofs.Concatenation
import ContextAtlas.Proofs.Skipped.Unterminated
import ContextAtlas.Proofs.Written.Report
import ContextAtlas.Proofs.Block.Outermost
import ContextAtlas.Proofs.Written.Relationship
import ContextAtlas.Proofs.Model.RoundTrip
import ContextAtlas.Proofs.Indexed.Report
import ContextAtlas.Proofs.Block.Text
import ContextAtlas.Proofs.Shape.Report
import ContextAtlas.Proofs.Requirement
import ContextAtlas.Proofs.Token.Fragment
import ContextAtlas.Proofs.Comment.Insertion
import ContextAtlas.Proofs.Workspace.Agreement
import ContextAtlas.Proofs.TypeRef.Spelling
import ContextAtlas.Proofs.Written.Operation
import ContextAtlas.Proofs.Written.Attribute
import ContextAtlas.Proofs.Written.Reference
import ContextAtlas.Proofs.Operation.States
import ContextAtlas.Proofs.Member.Lines
import ContextAtlas.Proofs.Block.Own
import ContextAtlas.Proofs.Written.Setting
import ContextAtlas.Proofs.Workspace.Config
