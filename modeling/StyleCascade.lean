import StyleCascade.Text.Basic
import StyleCascade.Text.Quoted
import StyleCascade.Number
import StyleCascade.Value
import StyleCascade.Property
import StyleCascade.Style
import StyleCascade.Selector.Basic
import StyleCascade.Selector.Parser
import StyleCascade.Forest.Basic
import StyleCascade.Log
import StyleCascade.Stylesheet
import StyleCascade.Forest.Edit
import StyleCascade.Forest.StyledTree
import StyleCascade.Proofs.Names
import StyleCascade.Proofs.Selector.Grammar
import StyleCascade.Proofs.Selector.Reading
import StyleCascade.Proofs.Selector.Canonical
import StyleCascade.Proofs.Selector.Matching
import StyleCascade.Proofs.Selector.Refinement
import StyleCascade.Proofs.Selector.Failure
import StyleCascade.Proofs.Selector.Joining
import StyleCascade.Proofs.Selector.Resuming
import StyleCascade.Proofs.Selector.Stepwise
import StyleCascade.Proofs.Selector.Progress
import StyleCascade.Proofs.Selector.Saturation
import StyleCascade.Proofs.Stylesheet.Run
import StyleCascade.Proofs.Stylesheet.Layers
import StyleCascade.Proofs.Stylesheet.Inheritance
import StyleCascade.Proofs.Forest.Links
import StyleCascade.Proofs.Forest.Shape
import StyleCascade.Proofs.Forest.Reshape
import StyleCascade.Proofs.Forest.Run
import StyleCascade.Proofs.Forest.Resolution
import StyleCascade.Proofs.Kinds
import StyleCascade.Proofs.Style.Layering
import StyleCascade.Proofs.Style.Equality
import StyleCascade.Proofs.Stylesheet.Registry
import StyleCascade.Proofs.Stylesheet.Lookup
import StyleCascade.Proofs.Stylesheet.Spelling
import StyleCascade.Proofs.Stylesheet.Ranking
import StyleCascade.Proofs.Stylesheet.Climb
import StyleCascade.Proofs.Stylesheet.Offers
import StyleCascade.Proofs.Stylesheet.Writes
import StyleCascade.Proofs.Stylesheet.Precedence
import StyleCascade.Proofs.Stylesheet.Tables
import StyleCascade.Proofs.Stylesheet.Representation
import StyleCascade.Proofs.Component
import StyleCascade.Proofs.Forest.Outline
import StyleCascade.Proofs.Forest.Refusal
import StyleCascade.Proofs.Forest.Preorder
import StyleCascade.Proofs.Forest.Independence
import StyleCascade.Proofs.Forest.Naming
import StyleCascade.Proofs.Forest.Records
import StyleCascade.Proofs.Forest.Loops
