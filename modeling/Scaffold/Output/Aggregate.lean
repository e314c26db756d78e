import Scaffold.Output.Entity

/-!
# Aggregates of a module

The files that belong to a module as a whole: its service provider, its routes, its seeder and its
settings.  They are made from the lists of all entities and seeders of the module.
-/

namespace Scaffold.Aggregate

/-- The layers of an entity that the service provider binds, with the suffixes of their classes. -/
def layers : List (String × String) :=
  [("Services", "Service"), ("Repositories", "Repository")]

/-- The imports of the service provider for an entity. -/
def providerImports (config : Config) (module entity : String) : List String :=
  layers.flatMap fun (layer, suffix) =>
    [config.importOf [module, layer, "Contracts", entity ++ suffix ++ "Interface"],
      config.importOf [module, layer, entity ++ suffix]]

/-- The bindings of the service provider for an entity. -/
def providerBindings (entity : String) : List String :=
  layers.map fun (_, suffix) =>
    indentation 2 ++ "$this->app->bind(" ++ entity ++ suffix ++ "Interface::class, " ++ entity ++
      suffix ++ "::class);"

/-- The line of the service provider that loads a file of routes. -/
def routeLoader (name : String) : String :=
  indentation 2 ++ "$this->loadRoutesFrom(__DIR__.'/../routes/" ++ name ++ ".php');"

/-- The plan of the service provider. -/
def providerPlan (config : Config) (module : String) (entities : List String) : FilePlan :=
  let loaders := routeLoader "api" :: if config.generateWebRoutes then [routeLoader "web"] else []
  ⟨"Providers/" ++ module ++ "ServiceProvider.php", "provider",
    [("namespace", config.namespaceOf [module, "Providers"]), ("module", module),
      ("providerName", module ++ "ServiceProvider"), ("snakeModule", Text.snakeCase module),
      ("imports", Text.joinLines (entities.flatMap (providerImports config module))),
      ("bindings", Text.joinLines (entities.flatMap providerBindings)),
      ("routeLoaders", Text.joinLines loaders)]⟩

/-- The segment of a route for an entity. -/
def routeSegment (entity : String) : String :=
  String.ofList ((Text.tableName entity).toList.map fun c => if c == '_' then '-' else c)

/-- The route of an entity in the interface. -/
def apiRoute (entity : String) : String :=
  indentation 1 ++ "Route::apiResource(" ++ Php.string (routeSegment entity) ++ ", " ++ entity ++
    "Controller::class);"

/-- The route of an entity among the pages. -/
def webRoute (entity : String) : String :=
  indentation 1 ++ "Route::resource(" ++ Php.string (routeSegment entity) ++ ", " ++ entity ++
    "Controller::class)->only(['index', 'show']);"

/-- The values of a file of routes. -/
def routeValues (config : Config) (module : String) (entities : List String)
    (route : String → String) : Keyed String :=
  let controller := fun (entity : String) =>
    config.importOf [module, "Http", "Controllers", entity ++ "Controller"]
  [("module", module), ("kebabModule", Text.kebabCase module),
    ("imports", Text.joinLines (entities.map controller)),
    ("routes", Text.joinLines (entities.map route))]

/-- The plan of the routes of the interface. -/
def apiPlan (config : Config) (module : String) (entities : List String) : FilePlan :=
  ⟨"routes/api.php", "route-api", routeValues config module entities apiRoute⟩

/-- The plan of the routes of the pages. -/
def webPlan (config : Config) (module : String) (entities : List String) : FilePlan :=
  ⟨"routes/web.php", "route-web", routeValues config module entities webRoute⟩

/-- The plan of the seeder of the module. -/
def seederPlan (config : Config) (module : String) (seeders : List String) : FilePlan :=
  ⟨"Database/Seeders/" ++ module ++ "DatabaseSeeder.php", "module-seeder",
    [("namespace", config.namespaceOf [module, "Database", "Seeders"]),
      ("seederName", module ++ "DatabaseSeeder"),
      ("seeders", Text.joinLines (seeders.map fun seeder => indentation 3 ++ seeder ++ "::class,"))]⟩

/-- The plan of the settings of the module. -/
def settingsPlan (module : String) : FilePlan :=
  ⟨"config/config.php", "config", [("module", module)]⟩

/-- The plans of all aggregates in order. -/
def plans (config : Config) (module : String) (entities seeders : List String) : List FilePlan :=
  [providerPlan config module entities, apiPlan config module entities,
    seederPlan config module seeders, settingsPlan module] ++
    if config.generateWebRoutes then [webPlan config module entities] else []

/-- Generate the aggregates of a module. -/
def generate (config : Config) (shelf : Stub.Shelf) (module : String)
    (entities seeders : List String) : OutputFiles :=
  (renderPlans shelf [] [] ((plans config module entities seeders).map .ok)).output none

end Scaffold.Aggregate
