import SqlHandler.Action.Manager
import SqlHandler.Connector.InStep
import SqlHandler.Connector.Integers
import SqlHandler.Connector.Nulls
import SqlHandler.Connector.Strings
import SqlHandler.Container.AttributeLists
import SqlHandler.Container.Attributes
import SqlHandler.Container.Blanks
import SqlHandler.Container.Blocks
import SqlHandler.Container.Clauses
import SqlHandler.Container.Coherence
import SqlHandler.Container.Conjuncts
import SqlHandler.Container.Constraints
import SqlHandler.Container.Counting
import SqlHandler.Container.Definitions
import SqlHandler.Container.Influence
import SqlHandler.Container.Kept
import SqlHandler.Container.Names
import SqlHandler.Container.Origins
import SqlHandler.Container.Restriction
import SqlHandler.Container.Select
import SqlHandler.Container.Setup
import SqlHandler.Container.Storage
import SqlHandler.Container.Variables
import SqlHandler.DEM.CheckPoints
import SqlHandler.DTM.Copies
import SqlHandler.DTM.Debug
import SqlHandler.DTM.Projection
import SqlHandler.Handler.Accounting
import SqlHandler.Handler.Agreement
import SqlHandler.Handler.Closing
import SqlHandler.Handler.Fallback
import SqlHandler.Handler.Leftovers
import SqlHandler.Handler.Once
import SqlHandler.Utils.Matchers
