import HanaCompat.Types
import HanaCompat.Jsonb1.Where
import HanaCompat.Jsonb1.Placeholders
import HanaCompat.Jsonb1.Shape
import HanaCompat.Jsonb1.Sql
import HanaCompat.Jsonb1.Meaning
import HanaCompat.Jsonb1.Grammar
import HanaCompat.Jsonb1.Panics
import HanaCompat.Jsonb1.WhereDocument
import HanaCompat.Jsonb1.Projection
import HanaCompat.Jsonb1.PostFilter
import HanaCompat.Jsonb1.Upsert
import HanaCompat.Jsonb1.ObjectID
import HanaCompat.Wire.OpQuery
import HanaCompat.Bson.Bool
import HanaCompat.Handlers.Commands
import HanaCompat.Handlers.ListCollections
import HanaCompat.Pg.Pool
