/-!
# The settings file to start from

`Settings.template` is a file in TOML with all defaults and what they mean.
-/

namespace SeriesPivot.Settings

/-- The text of a settings file with all defaults. -/
def template : String :=
  "\n".intercalate [
    "# InfluxDB Provider Configuration",
    "#",
    "# Environment variables override these settings:",
    "# - INFLUX_PROVIDER_URL",
    "# - INFLUX_PROVIDER_DATABASE",
    "# - INFLUX_PROVIDER_USERNAME",
    "# - INFLUX_PROVIDER_PASSWORD",
    "# - INFLUX_PROVIDER_API_HOST",
    "# - INFLUX_PROVIDER_API_PORT",
    "# - INFLUX_PROVIDER_LOG_LEVEL",
    "# - INFLUX_PROVIDER_LOG_FORMAT",
    "",
    "[influx]",
    "# InfluxDB base URL",
    "url = \"http://localhost:8086\"",
    "",
    "# Database holding the collections",
    "database = \"analytics\"",
    "",
    "# Basic auth credentials",
    "# username = \"reader\"",
    "# password = \"\"",
    "",
    "# Request timeout (ms)",
    "request_timeout_ms = 30000",
    "",
    "[api]",
    "# API server host",
    "host = \"0.0.0.0\"",
    "",
    "# API server port",
    "port = 8082",
    "",
    "# Allowed CORS origins (empty allows any)",
    "cors_origins = []",
    "",
    "# Request timeout in seconds",
    "request_timeout_secs = 30",
    "",
    "[query]",
    "# Bucket used by date dimensions when a query names no interval:",
    "# timebucket.second, timebucket.minute, timebucket.hour, timebucket.day, timebucket.week",
    "default_interval = \"timebucket.day\"",
    "",
    "# Fill empty groups with zero",
    "fill_zero = true",
    "",
    "[logging]",
    "# Log level: trace, debug, info, warn, error",
    "level = \"info\"",
    "",
    "# Log format: pretty (for development) or json (for production)",
    "format = \"pretty\"",
    ""
  ]

end SeriesPivot.Settings
